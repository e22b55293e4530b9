import Spool.Proofs.Log.Requests

namespace Spool.Log

namespace Books

-- The file of a page is made, or made longer.
def touch (b : Books) (f : Folder) (size : Nat) (page : UInt64) : Books :=
  b.setImage f ((b.image f).touch size page)

-- The books after pages were mapped or missed, those for payloads only where they may be.
inductive Touched (may : UInt64 → Prop) (b : Books) : Books → Prop
  | refl : Touched may b b
  | touch {b' : Books} (h : Touched may b b') (f : Folder) (size : Nat) (page : UInt64)
    (hmay : f = .data → may page) : Touched may b (b'.touch f size page)

-- What is read at an index: a page that is not granted is missed before anything is made of its bytes.
def heard (b : Books) (grant : Folder → UInt64 → Except Error Unit) (index : UInt64) : Except Error Bytes :=
  if b.contains index then do
    grant .index (Entry.pageOf index)
    grant .data (b.entry index).dataPage
    b.fetch index
  else .error (.outOfRange index b.tail b.head)

-- What is said of the time of the item at an index.
def dated (b : Books) (grant : Folder → UInt64 → Except Error Unit) (index : UInt64) : Except Error Int64 :=
  if b.contains index then do
    grant .index (Entry.pageOf index)
    return (b.entry index).timestamp
  else .error (.outOfRange index b.tail b.head)

section

variable {b b' : Books} {may : UInt64 → Prop}

theorem Like.heard_eq (h : b.Like b') (grant : Folder → UInt64 → Except Error Unit) (index : UInt64) :
    b'.heard grant index = b.heard grant index := by
  simp only [heard, h.contains_eq, h.entry_eq, h.fetch_eq, h.head, h.tail]

-- The bytes that are read do not tell how long the file of their page is.
theorem like_touch (b : Books) (f : Folder) (size : Nat) (page : UInt64) : b.Like (b.touch f size page) := by
  cases f with
  | index => exact ⟨rfl, rfl, rfl, fun _ => Image.bytes_touch _ _ _ _ _ _, fun _ _ _ => rfl⟩
  | data => exact ⟨rfl, rfl, rfl, fun _ => rfl, fun _ _ _ => Image.bytes_touch _ _ _ _ _ _⟩
  | ends => exact ⟨rfl, rfl, rfl, fun _ => rfl, fun _ _ _ => rfl⟩

theorem Touched.like (h : b.Touched may b') : b.Like b' := by
  induction h with
  | refl => exact .refl b
  | touch _ f size page _ ih => exact ih.trans (like_touch _ f size page)

theorem Touched.trans {b'' : Books} (h : b.Touched may b') (h' : b'.Touched may b'') : b.Touched may b'' := by
  induction h' with
  | refl => exact h
  | touch _ f size page hmay ih => exact ih.touch f size page hmay

theorem touched_lookUp (b : Books) (may : UInt64 → Prop) (index : UInt64) : b.Touched may (b.lookUp index) :=
  Touched.refl.touch .index Entry.pageSize (Entry.pageOf index) fun h => nomatch h

theorem touched_visit (b : Books) (index : UInt64) :
    b.Touched (· = (b.entry index).dataPage) (b.visit index) :=
  (b.touched_lookUp _ index).touch .data b.dataPageSize (b.entry index).dataPage fun _ => rfl

-- The file of a page that was missed may have been made or extended.
theorem Touched.missed {f : Folder} {page : UInt64} {img : Image} (h : b.Touched may b')
    (hmissed : (b'.image f).Missed page img) (hmay : f = .data → may page) :
    b.Touched may (b'.setImage f img) := by
  rcases hmissed with rfl | ⟨size, rfl⟩
  · rwa [setImage_image]
  · exact h.touch f size page hmay

end

end Books

section

variable {base : Location} {s t : Host × Log} {b b' : Books} {index : UInt64} {may : UInt64 → Prop}

-- A page that is not granted is missed, and the same is read as before.
theorem Goes.onPage_missed {b₀ : Books} (h : Goes base s t b') (htouched : b₀.Touched may b') (f : Folder)
    {page : UInt64} {e : Error} (hgrant : Log.grant base s f page = .error e) (hmay : f = .data → may page)
    (access : Page.Access α) :
    ∃ b'', Step.Ends (Step.inside f.part (Cache.withPage page access)) t (.error e)
      (fun u => Goes base s u b'') ∧ b₀.Touched may b'' := by
  obtain ⟨img, hpage, hmissed⟩ := h.faces.onPage_refused f (h.granted hgrant) access
  exact ⟨_, hpage.mono fun u hu => h.trans hu, htouched.missed hmissed hmay⟩

theorem Faces.readEntry_missed (h : Faces base s b) {e : Error}
    (hindex : grant base s .index (Entry.pageOf index) = .error e) :
    ∃ b', Step.Ends (Log.readEntry index) s (.error e) (fun t => Goes base s t b') ∧ b.Touched may b' := by
  have hsame : b.Touched may b := .refl
  obtain ⟨b', hmissed, htouched⟩ := h.goes.onPage_missed hsame .index hindex (fun h => nomatch h)
    (Page.read (Entry.positionOf index) Entry.width)
  exact ⟨b', hmissed.bind_error, htouched⟩

-- The entry is read before the page of its payload is missed.
private theorem Faces.fetch_missed (h : Faces base s b) (hin : b.contains index = true)
    (hindex : grant base s .index (Entry.pageOf index) = .ok ()) {e : Error}
    (hdata : grant base s .data (b.entry index).dataPage = .error e) :
    ∃ b', Step.Ends (Log.fetch index) s (.error e) (fun t => Goes base s t b') ∧
      b.Touched (· = (b.entry index).dataPage) b' := by
  obtain ⟨t, hrun, hgoes⟩ := (h.readEntry hindex).run_eq
  have hlook : b.Touched (· = (b.entry index).dataPage) (b.lookUp index) := b.touched_lookUp _ index
  obtain ⟨b', hmissed, htouched⟩ := hgoes.onPage_missed hlook .data hdata (fun _ => rfl)
    (Page.read (b.entry index).offset.toNat (b.entry index).length.toNat)
  refine ⟨b', ?_, htouched⟩
  exact ends_checked (h.checkIndex_eq_ok hin) (Step.ends_bind_of_run hrun (Step.Ends.bind_error hmissed))

-- A read of any index, whatever is in the way.
theorem Faces.ends_fetch (h : Faces base s b) (index : UInt64) :
    ∃ b', Step.Ends (Log.fetch index) s (b.heard (grant base s) index) (fun t => Goes base s t b') ∧
      b.Touched (fun page => b.contains index = true ∧ page = (b.entry index).dataPage) b' := by
  unfold Books.heard
  cases hin : b.contains index with
  | false =>
      refine ⟨b, (h.fetch_outOfRange hin).mono ?_, .refl⟩
      rintro _ rfl
      exact h.goes
  | true =>
      simp only [if_true, true_and]
      cases hindex : grant base s .index (Entry.pageOf index) with
      | error e =>
          obtain ⟨b', hread, htouched⟩ := h.readEntry_missed hindex
          exact ⟨b', ends_checked (h.checkIndex_eq_ok hin) hread.bind_error, htouched⟩
      | ok u =>
          cases hdata : grant base s .data (b.entry index).dataPage with
          | error e => exact h.fetch_missed hin hindex hdata
          | ok v => exact ⟨_, h.fetch hin hindex hdata, b.touched_visit index⟩

theorem Faces.ends_timestampOf (h : Faces base s b) (index : UInt64) :
    ∃ b', Step.Ends (Log.timestampOf index) s (b.dated (grant base s) index) (fun t => Goes base s t b') ∧
      b.Touched (fun _ => False) b' := by
  unfold Books.dated
  cases hin : b.contains index with
  | false =>
      refine ⟨b, (h.timestampOf_outOfRange hin).mono ?_, .refl⟩
      rintro _ rfl
      exact h.goes
  | true =>
      rw [if_pos rfl]
      cases hindex : grant base s .index (Entry.pageOf index) with
      | error e =>
          obtain ⟨b', hread, htouched⟩ := h.readEntry_missed hindex
          exact ⟨b', ends_checked (h.checkIndex_eq_ok hin) hread.bind_error, htouched⟩
      | ok u => exact ⟨_, h.timestampOf hin hindex, b.touched_lookUp _ index⟩

end

end Spool.Log
