import Spool.Proofs.Log.Circle
import Spool.Waiting.Slot

namespace Spool.Queue

-- Items are told apart by the order in which they came, which goes on when indexes come round again.
structure Delivery where
  item : Nat
  index : UInt64
  era : Nat
  -- The slot that the item went to, if it did not go to a caller.
  slot : Option Nat
  -- What whoever got the item was told.
  result : Except Error Bytes

namespace Delivery

-- An earlier delivery is of an earlier item. It may be of the same index only if all indexes have come
-- round since, and it is to another slot.
structure Before (d d' : Delivery) : Prop where
  item : d.item < d'.item
  index : d.era = d'.era → d.index = d'.index → d.item + UInt64.size ≤ d'.item
  slot : ∀ id, d.slot = some id → d'.slot ≠ some id

end Delivery

-- Deliveries up to an item that is at the front.
structure Tallied (ds : List Delivery) (item : Nat) (front : UInt64) (era : Nat) : Prop where
  earlier : ∀ d ∈ ds, d.item < item
  eras : ∀ d ∈ ds, d.era ≤ era
  places : ∀ d ∈ ds, d.era = era → front = d.index + UInt64.ofNat (item - d.item)
  sorted : ds.Pairwise Delivery.Before

section

variable {ds : List Delivery} {item item' : Nat} {front front' : UInt64} {era : Nat}

theorem tallied_nil (item : Nat) (front : UInt64) (era : Nat) : Tallied [] item front era where
  earlier d hd := by cases hd
  eras d hd := by cases hd
  places d hd := by cases hd
  sorted := .nil

-- Items are passed without being handed out. A full turn of the indexes is no move of the front.
theorem Tallied.skip (h : Tallied ds item front era) (k : Nat) :
    Tallied ds (item + k) (front + UInt64.ofNat k) era where
  earlier d hd := Nat.lt_add_right k (h.earlier d hd)
  eras := h.eras
  places d hd hera := by
    have hlt := h.earlier d hd
    have hdistance : item + k - d.item = item - d.item + k := by omega
    rw [h.places d hd hera, Circle.add_ofNat_add, hdistance]
  sorted := h.sorted

theorem Tallied.endEra (h : Tallied ds item front era) (hle : item ≤ item') (front' : UInt64) :
    Tallied ds item' front' (era + 1) where
  earlier d hd := Nat.lt_of_lt_of_le (h.earlier d hd) hle
  eras d hd := Nat.le_succ_of_le (h.eras d hd)
  places d hd hera := by
    have hle := h.eras d hd
    omega
  sorted := h.sorted

theorem Tallied.deliver (h : Tallied ds item front era) {slot : Option Nat}
    (hslot : ∀ d ∈ ds, ∀ id, d.slot = some id → slot ≠ some id) (result : Except Error Bytes) :
    Tallied (ds ++ [⟨item, front, era, slot, result⟩]) (item + 1) (front + 1) era where
  earlier d hd := by
    rcases List.mem_append.mp hd with hd | hd
    · exact Nat.lt_succ_of_lt (h.earlier d hd)
    · rw [List.mem_singleton.mp hd]
      exact Nat.lt_succ_self item
  eras d hd := by
    rcases List.mem_append.mp hd with hd | hd
    · exact h.eras d hd
    · exact Nat.le_of_eq (congrArg Delivery.era (List.mem_singleton.mp hd))
  places d hd hera := by
    rcases List.mem_append.mp hd with hd | hd
    · exact (h.skip 1).places d hd hera
    · obtain rfl := List.mem_singleton.mp hd
      exact congrArg (front + UInt64.ofNat ·) (Nat.add_sub_cancel_left item 1).symm
  sorted := by
    refine List.pairwise_append.mpr ⟨h.sorted, List.pairwise_singleton _ _, ?_⟩
    intro d hd d' hd'
    rw [List.mem_singleton.mp hd']
    refine ⟨h.earlier d hd, fun hera hindex => ?_, hslot d hd⟩
    have hlt := h.earlier d hd
    have hplace := h.places d hd hera
    have hturn : UInt64.ofNat (item - d.item) = 0 := by
      rw [hindex] at hplace
      exact UInt64.left_eq_add.mp hplace
    have hmod : (item - d.item) % UInt64.size = 0 := by
      rw [← UInt64.toNat_ofNat', hturn]
      rfl
    have hdvd := Nat.le_of_dvd (by omega) (Nat.dvd_of_mod_eq_zero hmod)
    show d.item + UInt64.size ≤ item
    omega

end

end Spool.Queue
