import Spool.Proofs.Log.Books

namespace Spool.Log

-- What each operation of a log does to its books.
namespace Books

-- The bytes of the entry for an index, whether or not their page is there.
def slot (b : Books) (index : UInt64) : Bytes :=
  b.index.bytes (Entry.pageOf index) (Entry.positionOf index) Entry.width

def entry (b : Books) (index : UInt64) : Entry :=
  Entry.decode (b.slot index)

def contains (b : Books) (index : UInt64) : Bool :=
  index - b.tail < b.head - b.tail

-- Where a payload of some length goes.
def placeFor (b : Books) (length : Nat) : Cursor :=
  if b.dataPageSize < b.cursor.offset + length then ⟨b.cursor.page + 1, 0⟩ else b.cursor

def append (b : Books) (payload : Bytes) : Books :=
  let place := b.placeFor payload.length
  { b with
    head := b.head + 1
    cursor := { place with offset := place.offset + payload.length }
    index := b.index.write Entry.pageSize (Entry.pageOf b.head) (Entry.positionOf b.head)
      (entryFor place payload b.now).encode
    data := b.data.write b.dataPageSize place.page place.offset payload
    ends := b.ends.setWord endsPageSize endsPage headPosition (b.head + 1) }

-- What is read at an index of the window.
def fetch (b : Books) (index : UInt64) : Except Error Bytes :=
  let e := b.entry index
  if e.finish ≤ b.dataPageSize then
    let payload := b.data.bytes e.dataPage e.offset.toNat e.length.toNat
    if Checksum.ofPayload payload ≠ e.checksum then .error (.corrupted index) else .ok payload
  else .error (.outOfBounds e.dataPage e.offset.toNat e.length.toNat b.dataPageSize)

-- Reading an entry maps its page.
def lookUp (b : Books) (index : UInt64) : Books :=
  { b with index := b.index.touch Entry.pageSize (Entry.pageOf index) }

-- Reading an item maps the page of its payload as well.
def visit (b : Books) (index : UInt64) : Books :=
  { b.lookUp index with data := b.data.touch b.dataPageSize (b.entry index).dataPage }

def removeAll (b : Books) : Books :=
  { b with
    head := 0
    tail := 0
    cursor := ⟨0, 0⟩
    index := b.index.without fun _ => true
    data := b.data.without fun _ => true
    ends := (b.ends.setWord endsPageSize endsPage headPosition 0).setWord endsPageSize endsPage
      tailPosition 0 }

-- Gives up the pages in front of an index and of a data page.
def dropBefore (b : Books) (index page : UInt64) : Books :=
  { b with
    tail := index
    index := (b.lookUp index).index.without fun other => other < Entry.pageOf index
    data := b.data.without fun other => other < page
    ends := b.ends.setWord endsPageSize endsPage tailPosition index }

def removeBefore (b : Books) (index : UInt64) : Books :=
  b.dropBefore index (b.entry index).dataPage

-- Books from which the same is read, whichever pages are mapped.
structure Like (b b' : Books) : Prop where
  dataPageSize : b'.dataPageSize = b.dataPageSize
  head : b'.head = b.head
  tail : b'.tail = b.tail
  slot : ∀ index, b'.slot index = b.slot index
  bytes : ∀ page position length, b'.data.bytes page position length = b.data.bytes page position length

section

variable {b b' b'' : Books}

theorem Like.refl (b : Books) : b.Like b :=
  ⟨rfl, rfl, rfl, fun _ => rfl, fun _ _ _ => rfl⟩

theorem Like.trans (h : b.Like b') (h' : b'.Like b'') : b.Like b'' where
  dataPageSize := h'.dataPageSize.trans h.dataPageSize
  head := h'.head.trans h.head
  tail := h'.tail.trans h.tail
  slot index := (h'.slot index).trans (h.slot index)
  bytes page position length := (h'.bytes page position length).trans (h.bytes page position length)

-- Mapping a page changes none of the bytes that are read from it.
theorem like_lookUp (b : Books) (index : UInt64) : b.Like (b.lookUp index) :=
  ⟨rfl, rfl, rfl, fun _ => Image.bytes_touch _ _ _ _ _ _, fun _ _ _ => rfl⟩

theorem like_visit (b : Books) (index : UInt64) : b.Like (b.visit index) :=
  ⟨rfl, rfl, rfl, fun _ => Image.bytes_touch _ _ _ _ _ _, fun _ _ _ => Image.bytes_touch _ _ _ _ _ _⟩

theorem Like.entry_eq (h : b.Like b') (index : UInt64) : b'.entry index = b.entry index :=
  congrArg Entry.decode (h.slot index)

theorem Like.contains_eq (h : b.Like b') (index : UInt64) : b'.contains index = b.contains index := by
  unfold contains
  rw [h.head, h.tail]

theorem Like.fetch_eq (h : b.Like b') (index : UInt64) : b'.fetch index = b.fetch index := by
  simp only [fetch, h.entry_eq, h.bytes, h.dataPageSize]

end

end Books

section

variable {dir : Path} {base : Location} {s : Host × Log} {b : Books} {index : UInt64}
  {payload : Bytes}

-- A payload that fits in a page fits where it goes.
theorem Books.placeFor_offset_add_le (hfits : payload.length ≤ b.dataPageSize) :
    (b.placeFor payload.length).offset + payload.length ≤ b.dataPageSize := by
  unfold Books.placeFor
  split
  · simpa using hfits
  · omega

theorem Faces.roll_eq (h : Faces base s b) (length : Nat) : s.2.roll length = b.placeFor length := by
  unfold Log.roll Books.placeFor
  rw [h.dataPageSize, h.cursor]

theorem Faces.contains_eq (h : Faces base s b) (index : UInt64) :
    s.2.contains index = b.contains index := by
  unfold Log.contains Log.size Books.contains
  rw [h.head, h.tail]

-- A request for an index goes on if the index is in the window.
theorem ends_checked {rest : Action α} {r : Except Error α} {post : Host × Log → Prop}
    (hcheck : s.2.checkIndex index = .ok ()) (hrest : Step.Ends rest s r post) :
    Step.Ends (do
      let (_, l) ← get
      Step.ofExcept (l.checkIndex index)
      rest) s r post := by
  refine Step.ends_get_bind ?_
  simp only [hcheck]
  refine (Step.ends_ofExcept (Eq.refl s)).bind ?_
  rintro _ rfl
  exact hrest

theorem ends_checked_error {e : Error} (hcheck : s.2.checkIndex index = .error e) (rest : Action α) :
    Step.Ends (do
      let (_, l) ← get
      Step.ofExcept (l.checkIndex index)
      rest) s (.error e) (· = s) := by
  refine Step.ends_get_bind ?_
  simp only [hcheck]
  exact (Step.ends_ofExcept rfl).bind_error

theorem Faces.checkIndex_eq_ok (h : Faces base s b) (hin : b.contains index = true) :
    s.2.checkIndex index = .ok () :=
  checkIndex_eq_ok_iff.mpr ((h.contains_eq index).trans hin)

theorem Faces.checkIndex_eq_error (h : Faces base s b) (hout : b.contains index = false) :
    s.2.checkIndex index = .error (.outOfRange index b.tail b.head) := by
  unfold Log.checkIndex
  rw [h.contains_eq, hout, h.head, h.tail]
  rfl

-- What a log does with its pages, each of which is granted.
section Granted

theorem Faces.readEntry (h : Faces base s b) (hgrant : grant base s .index (Entry.pageOf index) = .ok ()) :
    Step.Ends (Log.readEntry index) s (.ok (b.entry index)) fun t => Goes base s t (b.lookUp index) := by
  have hread := h.onIndexPage hgrant (Page.acts_read (by decide) (Entry.positionOf_add_width_le index))
  unfold Log.readEntry
  refine hread.bind ?_
  intro t ht
  exact Step.ends_pure ht

theorem Faces.writeEntry (h : Faces base s b)
    (hgrant : grant base s .index (Entry.pageOf index) = .ok ()) (e : Entry) :
    Step.Ends (Log.writeEntry index e) s (.ok ()) fun t => Goes base s t { b with
      index := b.index.write Entry.pageSize (Entry.pageOf index) (Entry.positionOf index) e.encode } := by
  have hbounds : Entry.positionOf index + e.encode.length ≤ Entry.pageSize := by
    rw [Entry.length_encode]
    exact Entry.positionOf_add_width_le index
  exact h.onIndexPage hgrant (Page.acts_write hbounds)

theorem Faces.publish (h : Faces base s b) (hgrant : grant base s .ends endsPage = .ok ())
    (position : Nat) (haligned : position % Page.counterSize = 0)
    (hbounds : position + Page.counterSize ≤ endsPageSize) (value : UInt64) :
    Step.Ends (Log.publish position value) s (.ok ()) fun t => Goes base s t { b with
      ends := b.ends.setWord endsPageSize endsPage position value } :=
  h.onEnds hgrant (Page.acts_setCounter haligned hbounds value)

-- A change of the counters in memory.
theorem Faces.setCounts (h : Faces base s b) (head tail : UInt64) (cursor : Cursor) :
    Goes base s (s.1, { s.2 with head, tail, cursor }) { b with head, tail, cursor } where
  faces := ⟨h.dataPageSize, h.now, rfl, rfl, rfl, h.copes, h.pageSize, h.image⟩
  dir _ := rfl
  frame := Disk.Frame.refl _ _
  noneNew _ hl := hl
  paged _ hpaged := hpaged
  grant _ _ := rfl
  regrant _ _ _ := rfl

theorem Faces.setCursor (h : Faces base s b) (cursor : Cursor) :
    Step.Ends (Log.setCursor cursor) s (.ok ()) fun t => Goes base s t { b with cursor } :=
  Step.ends_modify { h.goes with faces := { h with cursor := rfl } }

theorem Faces.publishHead (h : Faces base s b) (hgrant : grant base s .ends endsPage = .ok ())
    (value : UInt64) :
    Step.Ends (Log.publishHead value) s (.ok ()) fun t => Goes base s t { b with
      head := value
      ends := b.ends.setWord endsPageSize endsPage headPosition value } := by
  refine (h.publish hgrant _ (by decide) (by decide) value).bind ?_
  intro t ht
  exact Step.ends_modify { ht with faces := { ht.faces with head := rfl } }

theorem Faces.publishTail (h : Faces base s b) (hgrant : grant base s .ends endsPage = .ok ())
    (value : UInt64) :
    Step.Ends (Log.publishTail value) s (.ok ()) fun t => Goes base s t { b with
      tail := value
      ends := b.ends.setWord endsPageSize endsPage tailPosition value } := by
  refine (h.publish hgrant _ (by decide) (by decide) value).bind ?_
  intro t ht
  exact Step.ends_modify { ht with faces := { ht.faces with tail := rfl } }

theorem Faces.append (h : Faces base s b) (hfits : payload.length ≤ b.dataPageSize)
    (hdata : grant base s .data (b.placeFor payload.length).page = .ok ())
    (hindex : grant base s .index (Entry.pageOf b.head) = .ok ())
    (hends : grant base s .ends endsPage = .ok ()) :
    Step.Ends (Log.append payload) s (.ok b.head) fun t => Goes base s t (b.append payload) := by
  have hbounds := Books.placeFor_offset_add_le hfits
  have hnot : ¬s.2.dataPageSize < payload.length := by
    rw [h.dataPageSize]
    omega
  unfold Log.append
  refine Step.ends_get_bind ?_
  simp only [if_neg hnot, h.roll_eq, h.now, h.head]
  refine (h.setCursor _).bind ?_
  intro t ht
  refine (ht.faces.onDataPage (ht.granted hdata) (Page.acts_write hbounds)).bind ?_
  intro u hu
  have hu := ht.trans hu
  refine (hu.faces.writeEntry (hu.granted hindex) _).bind ?_
  intro v hv
  have hv := hu.trans hv
  refine (hv.faces.setCursor _).bind ?_
  intro w hw
  have hw := hv.trans hw
  refine (hw.faces.publishHead (hw.granted hends) _).bind ?_
  intro x hx
  exact Step.ends_pure (hw.trans hx)

-- An entry counts the bytes of its payload in four bytes.
private theorem length_le_maxBuffer (e : Entry) : e.length.toNat ≤ Page.maxBuffer :=
  Nat.le_trans (Nat.le_of_lt e.length.toNat_lt) (by decide)

theorem Faces.fetch (h : Faces base s b) (hin : b.contains index = true)
    (hindex : grant base s .index (Entry.pageOf index) = .ok ())
    (hdata : grant base s .data (b.entry index).dataPage = .ok ()) :
    Step.Ends (Log.fetch index) s (b.fetch index) fun t => Goes base s t (b.visit index) := by
  simp only [Books.fetch]
  refine ends_checked (h.checkIndex_eq_ok hin) ((h.readEntry hindex).bind ?_)
  intro t ht
  have hbuffer := length_le_maxBuffer (b.entry index)
  by_cases hfits : (b.entry index).finish ≤ b.dataPageSize
  · rw [if_pos hfits]
    refine (ht.faces.onDataPage (ht.granted hdata) (Page.acts_read hbuffer hfits)).bind ?_
    intro u hu
    have hgoes : Goes base _ u (b.visit index) := ht.trans hu
    show Step.Ends (if Checksum.ofPayload (b.data.bytes _ _ _) ≠ _ then _ else _) _ _ _
    split
    · refine Step.Ends.bind_error ?_
      exact Step.ends_throw hgoes
    · exact Step.ends_pure hgoes
  · have hout : b.dataPageSize < (b.entry index).offset.toNat + (b.entry index).length.toNat := by
      unfold Entry.finish at hfits
      omega
    rw [if_neg hfits]
    refine Step.Ends.bind_error ?_
    refine (ht.faces.onDataPage (ht.granted hdata) (Page.acts_read_outside hbuffer hout)).mono ?_
    intro u hu
    exact ht.trans hu

end Granted

-- What a log does that takes pages away, if nothing but a directory is in the way.
section Calm

variable (hcalm : s.1.disk.Calm)

include hcalm

theorem Faces.deleteWhere (h : Faces base s b) (f : Folder) (hpaged : s.1.disk.Paged (f.name :: base))
    (asked : UInt64 → Bool) :
    Step.Ends (Step.inside f.part (Cache.deleteWhere asked)) s (.ok ()) fun t =>
      Moves base s t (b.setImage f ((b.image f).without asked)) := by
  have hdelete := (h.copes f).deleteWhere hcalm hpaged asked
  rw [h.image f] at hdelete
  exact h.inside f hdelete

theorem Faces.removeAll (h : Faces base s b) (hpaged : ∀ f : Folder, s.1.disk.Paged (f.name :: base))
    (hends : ¬s.1.disk.Barred (endsDir :: base) endsPage) :
    Step.Ends Log.removeAll s (.ok ()) fun t => Moves base s t b.removeAll := by
  unfold Log.removeAll
  refine (h.deleteWhere hcalm .index (hpaged .index) _).bind ?_
  intro t ht
  refine (ht.faces.deleteWhere (ht.calm hcalm) .data (ht.paged .data (hpaged .data)) _).bind ?_
  intro u hu
  have hu := ht.trans hu
  have hgrant := grant_of_free (hu.calm hcalm) (f := .ends) (hu.free hends)
  refine (hu.faces.publish hgrant headPosition (by decide) (by decide) 0).bind ?_
  intro v hv
  refine (hv.faces.publish (hv.granted hgrant) tailPosition (by decide) (by decide) 0).bind ?_
  intro w hw
  exact Step.ends_modify (hu.trans ((hv.trans hw).trans (hw.faces.setCounts 0 0 ⟨0, 0⟩)).toMoves)

theorem Faces.removeBefore (h : Faces base s b) (hin : b.contains index = true)
    (hpaged : ∀ f : Folder, s.1.disk.Paged (f.name :: base))
    (hindex : ¬s.1.disk.Barred (indexDir :: base) (Entry.pageOf index))
    (hends : ¬s.1.disk.Barred (endsDir :: base) endsPage) :
    Step.Ends (Log.removeBefore index) s (.ok ()) fun t => Moves base s t (b.removeBefore index) := by
  have hread := h.readEntry (grant_of_free hcalm hindex)
  unfold Books.removeBefore
  -- What the entry says does not matter to what is done with it.
  generalize b.entry index = e at hread ⊢
  refine ends_checked (h.checkIndex_eq_ok hin) (hread.bind ?_)
  intro t ht
  refine (ht.faces.deleteWhere (ht.calm hcalm) .index (ht.paged .index (hpaged .index)) _).bind ?_
  intro u hu
  have hu := ht.toMoves.trans hu
  refine (hu.faces.deleteWhere (hu.calm hcalm) .data (hu.paged .data (hpaged .data)) _).bind ?_
  intro v hv
  have hv := hu.trans hv
  have hgrant := grant_of_free (hv.calm hcalm) (f := .ends) (hv.free hends)
  refine (hv.faces.publishTail hgrant index).mono ?_
  intro w hw
  exact hv.trans hw.toMoves

end Calm

-- What is refused before any page is taken.
section Refused

theorem Faces.append_tooLarge (h : Faces base s b) (hlong : b.dataPageSize < payload.length) :
    Step.Ends (Log.append payload) s (.error (.itemTooLarge payload.length b.dataPageSize)) (· = s) := by
  unfold Log.append
  refine Step.ends_get_bind ?_
  simp only [h.dataPageSize, if_pos hlong]
  exact (Step.ends_throw rfl).bind_error

theorem Faces.fetch_outOfRange (h : Faces base s b) (hout : b.contains index = false) :
    Step.Ends (Log.fetch index) s (.error (.outOfRange index b.tail b.head)) (· = s) :=
  ends_checked_error (h.checkIndex_eq_error hout) _

theorem Faces.removeBefore_outOfRange (h : Faces base s b) (hout : b.contains index = false) :
    Step.Ends (Log.removeBefore index) s (.error (.outOfRange index b.tail b.head)) (· = s) :=
  ends_checked_error (h.checkIndex_eq_error hout) _

end Refused

-- What was done by a removal that went well, whatever might have been refused.
section Done

variable {t : Host × Log}

private theorem Faces.granted_of_ok (h : Faces base s b) (f : Folder) {page : UInt64} {access : Page.Access α}
    {a : α} (hrun : (Step.inside f.part (Cache.withPage page access)).run s = (.ok a, t)) :
    grant base s f page = .ok () := by
  cases hgrant : grant base s f page with
  | ok _ => rfl
  | error e =>
      obtain ⟨img, hmissed, -⟩ := h.onPage_refused f hgrant access
      cases (congrArg Prod.fst hrun).symm.trans hmissed.1

private theorem Faces.deleteWhere_of_ok (h : Faces base s b) (f : Folder)
    (hpaged : s.1.disk.Paged (f.name :: base)) {asked : UInt64 → Bool}
    (hrun : (Step.inside f.part (Cache.deleteWhere asked)).run s = (.ok (), t)) :
    Moves base s t (b.setImage f ((b.image f).without asked)) := by
  have hresult : ((Cache.deleteWhere asked).run (s.1, f.cache s.2)).1 = .ok () := by
    rw [Step.run_inside, Folder.get_part] at hrun
    exact congrArg Prod.fst hrun
  have hdelete := (h.copes f).deleteWhere_of_ok hpaged (Prod.ext hresult rfl)
  rw [h.image f] at hdelete
  have hends : Step.Ends (Cache.deleteWhere asked) (s.1, f.cache s.2) (.ok ()) fun u =>
      Cache.Carries (f.name :: base) (s.1, f.cache s.2) u ((b.image f).without asked) := ⟨hresult, hdelete⟩
  exact (h.inside f hends).of_run hrun

theorem Faces.removeAll_of_ok (h : Faces base s b) (hpaged : ∀ f : Folder, s.1.disk.Paged (f.name :: base))
    (hrun : Log.removeAll.run s = (.ok (), t)) : Moves base s t b.removeAll := by
  unfold Log.removeAll at hrun
  obtain ⟨_, u, hindex, hrun⟩ := Step.run_bind_eq_ok_iff.mp hrun
  obtain ⟨_, v, hdata, hrun⟩ := Step.run_bind_eq_ok_iff.mp hrun
  obtain ⟨_, w, hhead, hrun⟩ := Step.run_bind_eq_ok_iff.mp hrun
  obtain ⟨_, x, htail, hrun⟩ := Step.run_bind_eq_ok_iff.mp hrun
  have hu := h.deleteWhere_of_ok .index (hpaged .index) hindex
  have hv := hu.trans (hu.faces.deleteWhere_of_ok .data (hu.paged .data (hpaged .data)) hdata)
  have hgrant := hv.faces.granted_of_ok .ends hhead
  have hw := (hv.faces.publish hgrant headPosition (by decide) (by decide) 0).of_run hhead
  have hx := (hw.faces.publish (hw.granted hgrant) tailPosition (by decide) (by decide) 0).of_run htail
  cases hrun
  exact hv.trans ((hw.trans hx).trans (hx.faces.setCounts 0 0 ⟨0, 0⟩)).toMoves

theorem Faces.removeBefore_of_ok (h : Faces base s b) (hpaged : ∀ f : Folder, s.1.disk.Paged (f.name :: base))
    (hrun : (Log.removeBefore index).run s = (.ok (), t)) :
    b.contains index = true ∧ Moves base s t (b.removeBefore index) := by
  have hin : b.contains index = true := by
    rw [← Bool.not_eq_false]
    intro hout
    cases (congrArg Prod.fst hrun).symm.trans (h.removeBefore_outOfRange hout).1
  have hcheck := h.checkIndex_eq_ok hin
  unfold Log.removeBefore at hrun
  rw [Step.run_bind_of_run (Step.run_get s)] at hrun
  dsimp only at hrun
  rw [hcheck, Step.run_bind_of_run (Step.run_ofExcept _ s)] at hrun
  obtain ⟨e, u, hread, hrun⟩ := Step.run_bind_eq_ok_iff.mp hrun
  obtain ⟨_, _, hpage, -⟩ := Step.run_bind_eq_ok_iff.mp hread
  have hentry := h.readEntry (h.granted_of_ok .index hpage)
  unfold Books.removeBefore
  generalize b.entry index = e' at hentry ⊢
  obtain rfl : e = e' := Except.ok.inj ((congrArg Prod.fst hread).symm.trans hentry.1)
  have hu := (hentry.of_run hread).toMoves
  obtain ⟨_, v, hindex, hrun⟩ := Step.run_bind_eq_ok_iff.mp hrun
  obtain ⟨_, w, hdata, hrun⟩ := Step.run_bind_eq_ok_iff.mp hrun
  have hv := hu.trans (hu.faces.deleteWhere_of_ok .index (hu.paged .index (hpaged .index)) hindex)
  have hw := hv.trans (hv.faces.deleteWhere_of_ok .data (hv.paged .data (hpaged .data)) hdata)
  obtain ⟨_, _, hends, -⟩ := Step.run_bind_eq_ok_iff.mp hrun
  exact ⟨hin, hw.trans ((hw.faces.publishTail (hw.faces.granted_of_ok .ends hends) index).of_run hrun).toMoves⟩

end Done

-- What a step comes to that leaves the books alone, and that goes well where nothing is refused.
private def Idles (base : Location) (b : Books) (x : Action Unit) (s : Host × Log) : Prop :=
  ∃ r, Step.Ends x s r (fun t => Goes base s t b) ∧ (s.1.disk.Calm → r = .ok ())

private theorem Faces.flushPart (h : Faces base s b) (f : Folder) :
    Idles base b (Step.inside f.part Cache.flush) s := by
  have hflush := (h.copes f).flush
  rw [h.image f] at hflush
  have hgoes := h.inside_uses f hflush
  rw [Books.setImage_image] at hgoes
  exact ⟨_, hgoes, fun hcalm => Cache.sync_of_calm hcalm _⟩

private theorem Idles.bind {x rest : Action Unit} (h : Idles base b x s)
    (hrest : ∀ t, Goes base s t b → Idles base b rest t) : Idles base b (x >>= fun _ => rest) s := by
  obtain ⟨r, hends, hok⟩ := h
  cases r with
  | error e => exact ⟨_, hends.bind_error, fun hcalm => nomatch hok hcalm⟩
  | ok _ =>
      obtain ⟨t, hrun, ht⟩ := hends.run_eq
      obtain ⟨r, hends', hok'⟩ := hrest t ht
      exact ⟨r, Step.ends_bind_of_run hrun (hends'.mono fun _ hu => ht.trans hu),
        fun hcalm => hok' (ht.calm hcalm)⟩

-- Neither a flush nor the passing of time shows in the books, but for the clock.
theorem Faces.flush (h : Faces base s b) :
    ∃ r, Step.Ends Log.flush s r (fun t => Goes base s t b) ∧ (s.1.disk.Calm → r = .ok ()) :=
  (h.flushPart .index).bind fun _ ht => (ht.faces.flushPart .data).bind fun _ hu => hu.faces.flushPart .ends

theorem Faces.sweep (h : Faces base s b) (now : Nat) :
    Moves base s ({ s.1 with now }, s.2.sweep now) { b with now } where
  faces := { h with
    now := rfl
    copes := fun f => f.cache_sweep s.2 now ▸ (h.copes f).sweep now
    pageSize := fun f => by
      rw [f.cache_sweep, Cache.pageSize_sweep]
      exact h.pageSize f }
  dir f := by
    rw [f.cache_sweep, Cache.dir_sweep]
  frame := Disk.Frame.refl _ _
  noneNew _ hl := hl
  paged _ hpaged := hpaged

-- The same on a site, where nothing stands in the way.
section Site

theorem Shows.readEntry (h : Shows dir base s b) (index : UInt64) :
    Step.Ends (Log.readEntry index) s (.ok (b.entry index)) fun t =>
      Leads dir base s t (b.lookUp index) :=
  h.leads_of_faces fun hfaces => (hfaces.readEntry (h.grant_eq_ok .index _)).mono fun _ ht => ht.toMoves

theorem Shows.contains_eq (h : Shows dir base s b) (index : UInt64) :
    s.2.contains index = b.contains index :=
  h.faces.contains_eq index

theorem Shows.append (h : Shows dir base s b) (hfits : payload.length ≤ b.dataPageSize) :
    Step.Ends (Log.append payload) s (.ok b.head) fun t => Leads dir base s t (b.append payload) :=
  h.leads_of_faces fun hfaces =>
    (hfaces.append hfits (h.grant_eq_ok .data _) (h.grant_eq_ok .index _) (h.grant_eq_ok .ends _)).mono
      fun _ ht => ht.toMoves

theorem Shows.append_tooLarge (h : Shows dir base s b) (hlong : b.dataPageSize < payload.length) :
    Step.Ends (Log.append payload) s (.error (.itemTooLarge payload.length b.dataPageSize)) (· = s) :=
  h.faces.append_tooLarge hlong

theorem Shows.fetch_outOfRange (h : Shows dir base s b) (hout : b.contains index = false) :
    Step.Ends (Log.fetch index) s (.error (.outOfRange index b.tail b.head)) (· = s) :=
  h.faces.fetch_outOfRange hout

theorem Shows.fetch (h : Shows dir base s b) (hin : b.contains index = true) :
    Step.Ends (Log.fetch index) s (b.fetch index) fun t => Leads dir base s t (b.visit index) :=
  h.leads_of_faces fun hfaces =>
    (hfaces.fetch hin (h.grant_eq_ok .index _) (h.grant_eq_ok .data _)).mono fun _ ht => ht.toMoves

theorem Shows.removeAll (h : Shows dir base s b) :
    Step.Ends Log.removeAll s (.ok ()) fun t => Leads dir base s t b.removeAll :=
  h.leads_of_faces fun hfaces => hfaces.removeAll h.calm h.paged (h.not_barred .ends _)

theorem Shows.removeBefore_outOfRange (h : Shows dir base s b) (hout : b.contains index = false) :
    Step.Ends (Log.removeBefore index) s (.error (.outOfRange index b.tail b.head)) (· = s) :=
  h.faces.removeBefore_outOfRange hout

theorem Shows.removeBefore (h : Shows dir base s b) (hin : b.contains index = true) :
    Step.Ends (Log.removeBefore index) s (.ok ()) fun t => Leads dir base s t (b.removeBefore index) :=
  h.leads_of_faces fun hfaces =>
    hfaces.removeBefore h.calm hin h.paged (h.not_barred .index _) (h.not_barred .ends _)

theorem Shows.flush (h : Shows dir base s b) :
    Step.Ends Log.flush s (.ok ()) fun t => Leads dir base s t b := by
  obtain ⟨r, hflush, hok⟩ := h.faces.flush
  rw [hok h.calm] at hflush
  exact hflush.mono fun _ ht => ht.leads h.site

theorem Shows.sweep (h : Shows dir base s b) (now : Nat) :
    Leads dir base s ({ s.1 with now }, s.2.sweep now) { b with now } :=
  (h.faces.sweep now).leads h.site

end Site

end

end Spool.Log
