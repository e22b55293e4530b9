import Spool.Proofs.Log.Keeping

namespace Spool.Log

namespace Books

-- The books after some reads in the window, while time passes.
inductive Later (b : Books) : Books → Prop
  | refl : Later b b
  | visit {b' : Books} {index : UInt64} (h : Later b b') (hin : b'.contains index = true) :
    Later b (b'.visit index)
  | setNow {b' : Books} (h : Later b b') (now : Nat) : Later b { b' with now }

section

variable {b b' b'' : Books} {g : Ledger} {payload : Bytes}

theorem Later.trans (h : Later b b') (h' : Later b' b'') : Later b b'' := by
  induction h' with
  | refl => exact h
  | visit _ hin ih => exact ih.visit hin
  | setNow _ now ih => exact ih.setNow now

-- Neither a read nor the clock changes what is read.
theorem Later.like (h : Later b b') : b.Like b' := by
  induction h with
  | refl => exact .refl b
  | visit _ _ ih => exact ih.trans (like_visit _ _)
  | setNow _ now ih => exact ih.trans ⟨rfl, rfl, rfl, fun _ => rfl, fun _ _ _ => rfl⟩

theorem Later.dataPageSize (h : Later b b') : b'.dataPageSize = b.dataPageSize :=
  h.like.dataPageSize

theorem Later.head (h : Later b b') : b'.head = b.head :=
  h.like.head

theorem Later.tail (h : Later b b') : b'.tail = b.tail :=
  h.like.tail

-- What a read at any index comes to.
def answer (b : Books) (index : UInt64) : Except Error Bytes :=
  if b.contains index then b.fetch index else .error (.outOfRange index b.tail b.head)

theorem Later.answer_eq (h : Later b b') (index : UInt64) : b'.answer index = b.answer index := by
  unfold answer
  rw [h.like.contains_eq, h.like.fetch_eq, h.tail, h.head]

-- The item that comes next, with the place that it gets.
def nextItem (b : Books) (payload : Bytes) : Item where
  page := (b.placeFor payload.length).page
  offset := (b.placeFor payload.length).offset
  payload
  pageSize := b.dataPageSize
  lost := false

theorem entry_append_head (b : Books) (payload : Bytes) :
    (b.append payload).entry b.head = (b.nextItem payload).entry (timestamp b.now) := by
  have hslot : (b.append payload).slot b.head =
      ((b.nextItem payload).entry (timestamp b.now)).encode := Image.bytes_write_slot _ _ _
  rw [entry, hslot, Entry.decode_encode]

-- No ledger is needed for this: it does not matter what was stored before.
theorem fetch_append_head (hfits : payload.length ≤ b.dataPageSize)
    (hle : b.dataPageSize ≤ maxDataPageSize) : (b.append payload).fetch b.head = .ok payload := by
  have hfinish : (b.nextItem payload).finish ≤ b.dataPageSize := placeFor_offset_add_le hfits
  have hmax : (b.nextItem payload).finish ≤ maxDataPageSize := Nat.le_trans hfinish hle
  have hentry := b.entry_append_head payload
  have hbytes : (b.append payload).data.bytes (b.nextItem payload).page (b.nextItem payload).offset
      (b.nextItem payload).payload.length = payload := Image.bytes_write_self _ _ _ _ _
  have hsize : (b.append payload).dataPageSize = b.dataPageSize := rfl
  have hpage : ((b.nextItem payload).entry (timestamp b.now)).dataPage = (b.nextItem payload).page := rfl
  have hchecksum : Checksum.ofPayload payload =
      ((b.nextItem payload).entry (timestamp b.now)).checksum := rfl
  simp only [fetch, hentry, hsize, hpage, Item.finish_entry hmax, Item.toNat_offset_entry hmax,
    Item.toNat_length_entry hmax, if_pos hfinish, hbytes]
  rw [if_neg (not_not_intro hchecksum)]

theorem Keeps.item?_isSome (h : b.Keeps g) {index : UInt64} (hin : b.contains index = true) :
    ∃ x, g.item? index = some x :=
  ⟨_, List.getElem?_eq_getElem ((h.contains_iff index).mp hin)⟩

theorem Keeps.later (h : b.Keeps g) (hlater : b.Later b') : b'.Keeps g := by
  induction hlater with
  | refl => exact h
  | visit _ hin ih =>
      obtain ⟨x, hx⟩ := ih.item?_isSome hin
      exact ih.visit hx
  | setNow _ now ih => exact ih.setNow now

-- What is read is the payload of the item at the index.
theorem Keeps.payload_of_answer (h : b.Keeps g) {index : UInt64}
    (hread : b.answer index = .ok payload) : ∃ x, g.item? index = some x ∧ x.payload = payload := by
  unfold answer at hread
  split at hread
  · next hin =>
    obtain ⟨x, hx⟩ := h.item?_isSome hin
    refine ⟨x, hx, ?_⟩
    rw [h.fetch_eq hx, Ledger.fetch, hx] at hread
    simp only at hread
    split at hread
    · cases hread
    · split at hread
      · exact Except.ok.inj hread
      · cases hread
  · cases hread

end

end Books

section

variable {dir : Path} {base : Location} {s : Host × Log} {b : Books}

theorem Shows.ends_fetch (h : Shows dir base s b) (index : UInt64) :
    ∃ b', Step.Ends (Log.fetch index) s (b.answer index) (fun t => Leads dir base s t b') ∧
      b.Later b' := by
  unfold Books.answer
  cases hin : b.contains index with
  | true => exact ⟨_, h.fetch hin, .visit .refl hin⟩
  | false =>
      refine ⟨b, (h.fetch_outOfRange hin).mono ?_, .refl⟩
      rintro _ rfl
      exact h.leads

end

end Spool.Log
