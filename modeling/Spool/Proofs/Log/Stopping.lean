import Spool.Proofs.Log.Obstructed

namespace Spool.Log

-- Nothing is in the way of a payload: it is not too long, and the log is granted all pages that it needs.
structure Clear (base : Location) (payload : Bytes) (s : Host × Log) : Prop where
  fits : payload.length ≤ s.2.dataPageSize
  isOpen : s.2.ends.closed = false
  data : grant base s .data (s.2.roll payload.length).page = .ok ()
  index : grant base s .index (Entry.pageOf s.2.head) = .ok ()
  ends : grant base s .ends endsPage = .ok ()

namespace Books

-- The cursor is where the payload goes.
def seek (b : Books) (payload : Bytes) : Books :=
  { b with cursor := b.placeFor payload.length }

-- The payload is written, but nothing says where.
def spill (b : Books) (payload : Bytes) : Books :=
  { b.seek payload with
    data := b.data.write b.dataPageSize (b.placeFor payload.length).page (b.placeFor payload.length).offset
      payload }

-- The entry is written as well, but its index is not in the window.
def record (b : Books) (payload : Bytes) : Books :=
  { b.spill payload with
    cursor := ⟨(b.placeFor payload.length).page, (b.placeFor payload.length).offset + payload.length⟩
    index := b.index.write Entry.pageSize (Entry.pageOf b.head) (Entry.positionOf b.head)
      (entryFor (b.placeFor payload.length) payload b.now).encode }

-- The next index is taken into the window.
def publish (b : Books) : Books :=
  { b with
    head := b.head + 1
    ends := b.ends.setWord endsPageSize endsPage headPosition (b.head + 1) }

theorem publish_record (b : Books) (payload : Bytes) : (b.record payload).publish = b.append payload :=
  rfl

-- What an append leaves behind that does not go through. A payload is refused if it is too long, or as soon
-- as a page is missed that it needs; what was done until then stays done.
inductive Stopped (b : Books) (payload : Bytes) : Books → Prop
  | refused : Stopped b payload b
  | seek {b' : Books} (hfits : payload.length ≤ b.dataPageSize)
    (h : (b.seek payload).Touched (· = (b.placeFor payload.length).page) b') : Stopped b payload b'
  | spill {b' : Books} (hfits : payload.length ≤ b.dataPageSize)
    (h : (b.spill payload).Touched (fun _ => False) b') : Stopped b payload b'
  | record {b' : Books} (hfits : payload.length ≤ b.dataPageSize)
    (h : (b.record payload).Touched (fun _ => False) b') : Stopped b payload b'

theorem Stopped.dataPageSize {b b' : Books} {payload : Bytes} (h : b.Stopped payload b') :
    b'.dataPageSize = b.dataPageSize := by
  cases h with
  | refused => rfl
  | seek _ htouched => exact htouched.like.dataPageSize
  | spill _ htouched => exact htouched.like.dataPageSize
  | record _ htouched => exact htouched.like.dataPageSize

end Books

section

variable {base : Location} {s : Host × Log} {b : Books} {payload : Bytes}

theorem Faces.append_clear (h : Faces base s b) (hclear : Clear base payload s) :
    Step.Ends (Log.append payload) s (.ok b.head) fun t => Goes base s t (b.append payload) := by
  obtain ⟨hfits, -, hdata, hindex, hends⟩ := hclear
  rw [h.dataPageSize] at hfits
  rw [h.roll_eq] at hdata
  rw [h.head] at hindex
  exact h.append hfits hdata hindex hends

-- An append of a payload that is not too long.
private theorem Faces.run_append (h : Faces base s b) (hfits : payload.length ≤ b.dataPageSize) :
    (Log.append payload).run s = (do
      Log.setCursor (b.placeFor payload.length)
      Log.onDataPage (b.placeFor payload.length).page (Page.write (b.placeFor payload.length).offset payload)
      Log.writeEntry b.head (entryFor (b.placeFor payload.length) payload b.now)
      Log.setCursor ⟨(b.placeFor payload.length).page, (b.placeFor payload.length).offset + payload.length⟩
      Log.publishHead (b.head + 1)
      return b.head : Action UInt64).run s := by
  have hnot : ¬s.2.dataPageSize < payload.length := by
    rw [h.dataPageSize]
    omega
  unfold Log.append
  rw [Step.run_bind_of_run (Step.run_get s)]
  simp only [if_neg hnot, h.roll_eq, h.now, h.head]

-- The append goes on page by page, and stops at the first one that it is not granted.
private theorem Faces.append_missed (h : Faces base s b) (hfits : payload.length ≤ b.dataPageSize)
    (hnot : ¬(grant base s .data (b.placeFor payload.length).page = .ok () ∧
      grant base s .index (Entry.pageOf b.head) = .ok () ∧ grant base s .ends endsPage = .ok ())) :
    ∃ e b', Step.Ends (Log.append payload) s (.error e) (fun t => Goes base s t b') ∧
      b.Stopped payload b' := by
  have hbounds := Books.placeFor_offset_add_le hfits
  have happend := h.run_append hfits
  obtain ⟨t, hseek, ht⟩ := (h.setCursor (b.placeFor payload.length)).run_eq
  have ht : Goes base s t (b.seek payload) := ht
  rw [Step.run_bind_of_run hseek] at happend
  cases hdata : grant base s .data (b.placeFor payload.length).page with
  | error e =>
      have hsame : (b.seek payload).Touched (· = (b.placeFor payload.length).page) (b.seek payload) := .refl
      obtain ⟨b', hmissed, htouched⟩ := ht.onPage_missed hsame .data hdata (fun _ => rfl)
        (Page.write (b.placeFor payload.length).offset payload)
      exact ⟨e, b', .of_run_eq happend (Step.Ends.bind_error hmissed), .seek hfits htouched⟩
  | ok _ =>
  obtain ⟨u, hspill, hu⟩ := (ht.faces.onDataPage (ht.granted hdata) (Page.acts_write hbounds)).run_eq
  have hu : Goes base s u (b.spill payload) := ht.trans hu
  rw [Step.run_bind_of_run hspill] at happend
  cases hindex : grant base s .index (Entry.pageOf b.head) with
  | error e =>
      have hsame : (b.spill payload).Touched (fun _ => False) (b.spill payload) := .refl
      obtain ⟨b', hmissed, htouched⟩ := hu.onPage_missed hsame .index hindex (fun h => nomatch h)
        (Page.write (Entry.positionOf b.head) (entryFor (b.placeFor payload.length) payload b.now).encode)
      exact ⟨e, b', .of_run_eq happend (Step.Ends.bind_error hmissed), .spill hfits htouched⟩
  | ok _ =>
  obtain ⟨v, hwrite, hv⟩ := (hu.faces.writeEntry (hu.granted hindex) _).run_eq
  have hv := hu.trans hv
  rw [Step.run_bind_of_run hwrite] at happend
  obtain ⟨w, hmove, hw⟩ := (hv.faces.setCursor _).run_eq
  have hw : Goes base s w (b.record payload) := hv.trans hw
  rw [Step.run_bind_of_run hmove] at happend
  cases hends : grant base s .ends endsPage with
  | error e =>
      have hsame : (b.record payload).Touched (fun _ => False) (b.record payload) := .refl
      obtain ⟨b', hmissed, htouched⟩ := hw.onPage_missed hsame .ends hends (fun h => nomatch h)
        (Page.setCounter headPosition (b.head + 1))
      have hpublish : Step.Ends (Log.publishHead (b.head + 1)) w (.error e) fun t => Goes base s t b' :=
        Step.Ends.bind_error hmissed
      exact ⟨e, b', .of_run_eq happend hpublish.bind_error, .record hfits htouched⟩
  | ok _ => exact absurd ⟨hdata, hindex, hends⟩ hnot

-- Whatever is in the way, the append stops in front of it.
theorem Faces.append_stopped (h : Faces base s b) (hnot : ¬Clear base payload s) :
    ∃ e b', Step.Ends (Log.append payload) s (.error e) (fun t => Goes base s t b') ∧
      b.Stopped payload b' := by
  by_cases hfits : payload.length ≤ b.dataPageSize
  · refine h.append_missed hfits fun hgranted => hnot ?_
    obtain ⟨hdata, hindex, hends⟩ := hgranted
    rw [← h.roll_eq] at hdata
    rw [← h.head] at hindex
    exact ⟨h.dataPageSize ▸ hfits, (h.copes .ends).notClosed, hdata, hindex, hends⟩
  · refine ⟨_, b, (h.append_tooLarge (Nat.lt_of_not_le hfits)).mono ?_, .refused⟩
    rintro _ rfl
    exact h.goes

end

end Spool.Log
