import Std.Data.TreeMap
import Spool.Bytes.LittleEndian

namespace Spool

-- A byte that was never written is zero, so a file can grow to any length at no cost.
structure Content where
  size : Nat
  stored : Std.TreeMap Nat UInt8

namespace Content

def empty : Content := ⟨0, ∅⟩

def byteAt (c : Content) (position : Nat) : UInt8 :=
  c.stored.getD position 0

def store (stored : Std.TreeMap Nat UInt8) (position : Nat) : Bytes → Std.TreeMap Nat UInt8
  | [] => stored
  | b :: bs => store (stored.insert position b) (position + 1) bs

-- Overwrites bytes in place. The length stays.
def write (c : Content) (position : Nat) (data : Bytes) : Content :=
  { c with stored := store c.stored position data }

def read (c : Content) (position length : Nat) : Bytes :=
  (List.range' position length).map c.byteAt

-- Longer contents stay as they are.
def growTo (c : Content) (size : Nat) : Content :=
  { c with size := max c.size size }

def ofBytes (data : Bytes) : Content :=
  ⟨data.length, store ∅ 0 data⟩

theorem getD_store (stored : Std.TreeMap Nat UInt8) (position : Nat) (data : Bytes) (p : Nat) :
    (store stored position data).getD p 0 =
      if position ≤ p then data[p - position]?.getD (stored.getD p 0) else stored.getD p 0 := by
  induction data generalizing stored position with
  | nil => simp [store]
  | cons b bs ih =>
    rw [store, ih]
    by_cases hfirst : p = position
    · subst hfirst
      have hrest : ¬p + 1 ≤ p := by omega
      simp [hrest]
    · have hinsert : (stored.insert position b).getD p 0 = stored.getD p 0 := by
        simp [Std.TreeMap.getD_insert, Ne.symm hfirst]
      by_cases hrest : position + 1 ≤ p
      · have hall : position ≤ p := by omega
        have hindex : p - position = p - (position + 1) + 1 := by omega
        rw [if_pos hrest, if_pos hall, hinsert, hindex, List.getElem?_cons_succ]
      · have hall : ¬position ≤ p := by omega
        rw [if_neg hrest, if_neg hall, hinsert]

theorem byteAt_write (c : Content) (position : Nat) (data : Bytes) (p : Nat) :
    (c.write position data).byteAt p =
      if position ≤ p then data[p - position]?.getD (c.byteAt p) else c.byteAt p :=
  getD_store c.stored position data p

theorem byteAt_empty (p : Nat) : empty.byteAt p = 0 := by
  simp [empty, byteAt]

-- A read sees of a write exactly the bytes at its own positions.
theorem read_congr {c d : Content} {position length : Nat}
    (h : ∀ p, position ≤ p → p < position + length → c.byteAt p = d.byteAt p) :
    c.read position length = d.read position length := by
  apply List.map_congr_left
  intro p hp
  rw [List.mem_range'_1] at hp
  exact h p hp.1 hp.2

end Content

end Spool
