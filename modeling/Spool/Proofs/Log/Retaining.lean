import Spool.Proofs.Log.Stopping

namespace Spool.Log.Books

-- The bytes that the entry for an index names.
def stored (b : Books) (index : UInt64) : Bytes :=
  b.data.bytes (b.entry index).dataPage (b.entry index).offset.toNat (b.entry index).length.toNat

-- The books as a log with another page size reads them.
def sized (b : Books) (dataPageSize : Nat) : Books :=
  { b with dataPageSize }

-- Every item of the window is still there, with its entry and its bytes. So the same is read at its index,
-- with whatever page size.
structure Retains (b b' : Books) : Prop where
  contains : ∀ {i}, b.contains i = true → b'.contains i = true
  entry : ∀ {i}, b.contains i = true → b'.entry i = b.entry i
  stored : ∀ {i}, b.contains i = true → b'.stored i = b.stored i

-- The window is the same, and so is what is in it.
structure Same (b b' : Books) : Prop extends Retains b b' where
  head : b'.head = b.head
  tail : b'.tail = b.tail

section

variable {b b' b'' : Books} {index : UInt64}

theorem Retains.refl (b : Books) : b.Retains b :=
  ⟨fun h => h, fun _ => rfl, fun _ => rfl⟩

theorem Retains.trans (h : b.Retains b') (h' : b'.Retains b'') : b.Retains b'' where
  contains hin := h'.contains (h.contains hin)
  entry hin := (h'.entry (h.contains hin)).trans (h.entry hin)
  stored hin := (h'.stored (h.contains hin)).trans (h.stored hin)

theorem Same.refl (b : Books) : b.Same b :=
  ⟨.refl b, rfl, rfl⟩

theorem Same.trans (h : b.Same b') (h' : b'.Same b'') : b.Same b'' :=
  ⟨h.toRetains.trans h'.toRetains, h'.head.trans h.head, h'.tail.trans h.tail⟩

theorem contains_congr (hhead : b'.head = b.head) (htail : b'.tail = b.tail) (index : UInt64) :
    b'.contains index = b.contains index := by
  unfold contains
  rw [hhead, htail]

theorem Same.contains_eq (h : b.Same b') (index : UInt64) : b'.contains index = b.contains index :=
  contains_congr h.head h.tail index

theorem Like.same (h : b.Like b') : b.Same b' where
  contains hin := (h.contains_eq _).trans hin
  entry _ := h.entry_eq _
  stored _ := by
    unfold Books.stored
    rw [h.entry_eq, h.bytes]
  head := h.head
  tail := h.tail

-- What is read is made of the entry and of the bytes that it names.
private theorem fetch_sized_congr {dataPageSize : Nat} (hentry : b'.entry index = b.entry index)
    (hstored : b'.stored index = b.stored index) :
    (b'.sized dataPageSize).fetch index = (b.sized dataPageSize).fetch index := by
  have hbytes : ∀ b : Books, (b.sized dataPageSize).fetch index =
      if (b.entry index).finish ≤ dataPageSize then
        if Checksum.ofPayload (b.stored index) ≠ (b.entry index).checksum then .error (.corrupted index)
        else .ok (b.stored index)
      else .error (.outOfBounds (b.entry index).dataPage (b.entry index).offset.toNat
        (b.entry index).length.toNat dataPageSize) := fun _ => rfl
  rw [hbytes, hbytes, hentry, hstored]

theorem Retains.heard_eq (h : b.Retains b') (hin : b.contains index = true) (dataPageSize : Nat)
    (grant : Folder → UInt64 → Except Error Unit) :
    (b'.sized dataPageSize).heard grant index = (b.sized dataPageSize).heard grant index := by
  have hin' : (b'.sized dataPageSize).contains index = true := h.contains hin
  have hentry : (b'.sized dataPageSize).entry index = (b.sized dataPageSize).entry index := h.entry hin
  have hin : (b.sized dataPageSize).contains index = true := hin
  rw [heard, heard, if_pos hin, if_pos hin', hentry, fetch_sized_congr (h.entry hin) (h.stored hin)]

theorem Retains.dated_eq (h : b.Retains b') (hin : b.contains index = true)
    (grant : Folder → UInt64 → Except Error Unit) : b'.dated grant index = b.dated grant index := by
  rw [dated, dated, if_pos hin, if_pos (h.contains hin), h.entry hin]

theorem Same.heard_eq (h : b.Same b') (dataPageSize : Nat) (grant : Folder → UInt64 → Except Error Unit)
    (index : UInt64) :
    (b'.sized dataPageSize).heard grant index = (b.sized dataPageSize).heard grant index := by
  by_cases hin : b.contains index = true
  · exact h.toRetains.heard_eq hin dataPageSize grant
  · have hout : ¬(b.sized dataPageSize).contains index = true := hin
    have hout' : ¬(b'.sized dataPageSize).contains index = true := by
      rw [← h.contains_eq] at hin
      exact hin
    rw [heard, heard, if_neg hout, if_neg hout']
    show Except.error (Error.outOfRange index b'.tail b'.head) = _
    rw [h.head, h.tail]
    rfl

theorem Same.dated_eq (h : b.Same b') (grant : Folder → UInt64 → Except Error Unit) (index : UInt64) :
    b'.dated grant index = b.dated grant index := by
  by_cases hin : b.contains index = true
  · exact h.toRetains.dated_eq hin grant
  · rw [dated, dated, h.contains_eq, if_neg hin, if_neg hin, h.head, h.tail]

end

end Spool.Log.Books
