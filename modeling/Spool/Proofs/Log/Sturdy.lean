import Spool.Proofs.Log.Retaining

namespace Spool.Log

namespace Entry

-- Where the payload ends.
def stop (e : Entry) : Cursor :=
  ⟨e.dataPage, e.finish⟩

-- Nothing of the payload is behind a place.
def Before (e : Entry) (place : Cursor) : Prop :=
  e.dataPage < place.page ∨ e.dataPage = place.page ∧ e.finish ≤ place.offset

theorem before_stop (e : Entry) : e.Before e.stop :=
  .inr ⟨rfl, Nat.le_refl _⟩

theorem Before.page_le {e : Entry} {place : Cursor} (h : e.Before place) : e.dataPage ≤ place.page := by
  rcases h with hpage | ⟨hpage, -⟩
  · exact UInt64.le_of_lt hpage
  · exact UInt64.le_of_eq hpage

end Entry

namespace Books

-- What holds of the books after so many appends, some of which may have stopped half way. No word is said of
-- what was ever appended: the entries in the window are one behind another, all of them are in front of the
-- cursor, and the pages that they need are there. So whatever an append does, it does outside of the window.
structure Sturdy (b : Books) (n : Nat) : Prop where
  pageSize_pos : 0 < b.dataPageSize
  pageSize_le : b.dataPageSize ≤ maxDataPageSize
  tail_le : b.tail ≤ b.head
  head_le : b.head.toNat ≤ n
  headWord : b.ends.word endsPage headPosition = b.head
  tailWord : b.ends.word endsPage tailPosition = b.tail
  endsPage : (b.ends endsPage).isSome
  indexPage : ∀ {i}, b.contains i = true → (b.index (Entry.pageOf i)).isSome
  dataPage : ∀ {i}, b.contains i = true → (b.data (b.entry i).dataPage).isSome
  ordered : ∀ {i j}, b.contains i = true → b.contains j = true → i ≤ j → (b.entry i).Before (b.entry j).stop
  before_cursor : ∀ {i}, b.contains i = true → (b.entry i).Before b.cursor
  pages : ∀ {page}, (b.data page).isSome → page.toNat < n
  room : b.cursor.page.toNat < n ∨ b.cursor.offset = 0 ∧ b.cursor.page.toNat ≤ n

section

variable {b b' : Books} {n : Nat} {index i : UInt64} {payload : Bytes}

-- The window does not go round the circle.
theorem contains_iff_of_le (h : b.tail ≤ b.head) (index : UInt64) :
    b.contains index = true ↔ b.tail ≤ index ∧ index < b.head := by
  rw [contains, decide_eq_true_iff]
  rw [UInt64.le_iff_toNat_le] at h
  have hhead := UInt64.toNat_lt b.head
  have hindex := UInt64.toNat_lt index
  simp only [UInt64.lt_iff_toNat_lt, UInt64.le_iff_toNat_le, UInt64.toNat_sub]
  omega

-- The books of a log that has no items and no data pages.
theorem sturdy_of_nothing (hpos : 0 < b.dataPageSize) (hle : b.dataPageSize ≤ maxDataPageSize)
    (hhead : b.head = 0) (htail : b.tail = 0) (hheadWord : b.ends.word Log.endsPage headPosition = 0)
    (htailWord : b.ends.word Log.endsPage tailPosition = 0) (hends : (b.ends Log.endsPage).isSome)
    (hdata : ∀ page, b.data page = none) (hcursor : b.cursor = ⟨0, 0⟩) : b.Sturdy 0 := by
  have hnone : ∀ {i}, ¬b.contains i = true := by
    intro i hi
    rw [contains_iff_of_le (by rw [hhead, htail]; exact UInt64.le_refl 0), hhead] at hi
    exact UInt64.not_lt.mpr UInt64.zero_le hi.2
  exact {
    pageSize_pos := hpos
    pageSize_le := hle
    tail_le := by
      rw [hhead, htail]
      exact UInt64.le_refl 0
    head_le := by
      rw [hhead]
      exact Nat.le_refl 0
    headWord := hheadWord.trans hhead.symm
    tailWord := htailWord.trans htail.symm
    endsPage := hends
    indexPage := fun hi => absurd hi hnone
    dataPage := fun hi => absurd hi hnone
    ordered := fun hi => absurd hi hnone
    before_cursor := fun hi => absurd hi hnone
    pages := fun hpage => by
      rw [hdata] at hpage
      cases hpage
    room := by
      rw [hcursor]
      exact .inr ⟨rfl, Nat.le_refl 0⟩ }

-- What is not in front of the index keeps its entry.
private theorem entry_dropBefore (b : Books) (page : UInt64) (hle : index ≤ i) :
    (b.dropBefore index page).entry i = b.entry i := by
  have hkept : Ledger.isDropped index i = false :=
    decide_eq_false (UInt64.not_lt.mpr (Entry.pageOf_le_pageOf hle))
  rw [entry, slot_dropBefore, hkept]
  rfl

section Sturdy

variable (h : b.Sturdy n)

include h

theorem Sturdy.contains_iff (index : UInt64) :
    b.contains index = true ↔ b.tail ≤ index ∧ index < b.head :=
  contains_iff_of_le h.tail_le index

theorem Sturdy.not_contains_head : ¬b.contains b.head = true := by
  rw [h.contains_iff]
  exact fun hin => UInt64.lt_irrefl _ hin.2

theorem Sturdy.mono {m : Nat} (hle : n ≤ m) : b.Sturdy m :=
  { h with
    head_le := Nat.le_trans h.head_le hle
    pages := fun hpage => Nat.lt_of_lt_of_le (h.pages hpage) hle
    room := by
      have hroom := h.room
      omega }

-- The same window in other books: its entries are the same, its pages are there, and so is the cursor
-- behind it.
private theorem Sturdy.of_window (hpos : 0 < b'.dataPageSize) (hle : b'.dataPageSize ≤ maxDataPageSize)
    (hhead : b'.head = b.head) (htail : b'.tail = b.tail)
    (hwords : ∀ position, b'.ends.word Log.endsPage position = b.ends.word Log.endsPage position)
    (hends : (b'.ends Log.endsPage).isSome)
    (hslot : ∀ index, b'.slot index = b.slot index)
    (hindex : ∀ {page}, (b.index page).isSome → (b'.index page).isSome)
    (hdata : ∀ {page}, (b.data page).isSome → (b'.data page).isSome)
    (hpages : ∀ {page}, (b'.data page).isSome → page.toNat < n)
    (hbefore : ∀ {i}, b.contains i = true → (b.entry i).Before b'.cursor)
    (hroom : b'.cursor.page.toNat < n ∨ b'.cursor.offset = 0 ∧ b'.cursor.page.toNat ≤ n) :
    b'.Sturdy n := by
  have hentry : ∀ i, b'.entry i = b.entry i := fun i => congrArg Entry.decode (hslot i)
  have hcontains : ∀ {i}, b'.contains i = true → b.contains i = true :=
    fun {i} hi => (contains_congr hhead htail i).symm.trans hi
  refine ⟨hpos, hle, ?tail_le, ?head_le, ?headWord, ?tailWord, hends, fun hi => ?indexPage,
    fun hi => ?dataPage, fun hi hj hle => ?ordered, fun hi => ?before_cursor, hpages, hroom⟩
  case tail_le =>
    rw [hhead, htail]
    exact h.tail_le
  case head_le =>
    rw [hhead]
    exact h.head_le
  case headWord => rw [hwords, h.headWord, hhead]
  case tailWord => rw [hwords, h.tailWord, htail]
  case indexPage => exact hindex (h.indexPage (hcontains hi))
  case dataPage =>
    rw [hentry]
    exact hdata (h.dataPage (hcontains hi))
  case ordered =>
    rw [hentry, hentry]
    exact h.ordered (hcontains hi) (hcontains hj) hle
  case before_cursor =>
    rw [hentry]
    exact hbefore (hcontains hi)

-- The file of a page may be made or extended, if it is not one for payloads that come later.
theorem Sturdy.touch (f : Folder) (size : Nat) {page : UInt64} (hpage : f = .data → page.toNat < n) :
    (b.touch f size page).Sturdy n := by
  have hlike := b.like_touch f size page
  refine h.of_window h.pageSize_pos h.pageSize_le hlike.head hlike.tail (fun position => ?words) ?ends hlike.slot
    (fun hi => ?index) (fun hi => ?data) (fun hi => ?pages) h.before_cursor h.room
  case words =>
    cases f with
    | ends => exact Image.word_touch _ _ _ _ _
    | _ => rfl
  case ends =>
    cases f with
    | ends => exact Image.isSome_touch h.endsPage
    | _ => exact h.endsPage
  case index =>
    cases f with
    | index => exact Image.isSome_touch hi
    | _ => exact hi
  case data =>
    cases f with
    | data => exact Image.isSome_touch hi
    | _ => exact hi
  case pages =>
    cases f with
    | data =>
        rcases Image.isSome_set_iff.mp hi with rfl | hi
        · exact hpage rfl
        · exact h.pages hi
    | _ => exact h.pages hi

theorem Sturdy.lookUp (index : UInt64) : (b.lookUp index).Sturdy n :=
  h.touch .index Entry.pageSize fun hf => nomatch hf

omit h in
theorem Touched.sturdy {may : UInt64 → Prop} (htouched : b.Touched may b') (h : b.Sturdy n)
    (hmay : ∀ page, may page → page.toNat < n) : b'.Sturdy n := by
  induction htouched with
  | refl => exact h
  | touch _ f size page hpage ih => exact ih.touch f size fun hf => hmay page (hpage hf)

theorem Sturdy.setNow (now : Nat) : { b with now : Books }.Sturdy n :=
  { h with }

private theorem Sturdy.setCursor {cursor : Cursor}
    (hbefore : ∀ {i}, b.contains i = true → (b.entry i).Before cursor)
    (hroom : cursor.page.toNat < n ∨ cursor.offset = 0 ∧ cursor.page.toNat ≤ n) :
    { b with cursor : Books }.Sturdy n :=
  { h with
    before_cursor := hbefore
    room := hroom }

-- No data page may be taken away.
private theorem Sturdy.setData {data : Image} (hdata : ∀ {page}, (b.data page).isSome → (data page).isSome)
    (hpages : ∀ {page}, (data page).isSome → page.toNat < n) : { b with data : Books }.Sturdy n :=
  { h with
    dataPage := fun hin => hdata (h.dataPage hin)
    pages := hpages }

-- No entry of the window may be changed, and no index page may be taken away.
private theorem Sturdy.setIndex {index : Image}
    (hentry : ∀ {i}, b.contains i = true → ({ b with index : Books }).entry i = b.entry i)
    (hindex : ∀ {page}, (b.index page).isSome → (index page).isSome) : { b with index : Books }.Sturdy n :=
  { h with
    indexPage := fun hin => hindex (h.indexPage hin)
    dataPage := fun hin => by
      rw [hentry hin]
      exact h.dataPage hin
    ordered := fun hi hj hle => by
      rw [hentry hi, hentry hj]
      exact h.ordered hi hj hle
    before_cursor := fun hin => by
      rw [hentry hin]
      exact h.before_cursor hin }

-- A payload goes to a new page only from a page where something is.
private theorem Sturdy.placeFor_cases (hfits : payload.length ≤ b.dataPageSize) :
    b.placeFor payload.length = b.cursor ∨
      b.placeFor payload.length = ⟨b.cursor.page + 1, 0⟩ ∧ b.cursor.page.toNat < n := by
  unfold placeFor
  split
  · next hlong =>
    rcases h.room with hpage | ⟨hoffset, -⟩
    · exact .inr ⟨rfl, hpage⟩
    · omega
  · exact .inl rfl

private theorem Sturdy.entry_record (hin : b.contains i = true) :
    (b.record payload).entry i = b.entry i := by
  have hne : i ≠ b.head := fun hi => h.not_contains_head (hi ▸ hin)
  exact congrArg Entry.decode (Image.bytes_write_slot_of_ne _ _ hne)

section Place

variable (hn : n < UInt64.size) (hfits : payload.length ≤ b.dataPageSize)

include hn hfits

theorem Sturdy.room_placeFor : (b.placeFor payload.length).page.toNat < n ∨
    (b.placeFor payload.length).offset = 0 ∧ (b.placeFor payload.length).page.toNat ≤ n := by
  rcases h.placeFor_cases hfits with hplace | ⟨hplace, hpage⟩
  · rw [hplace]
    exact h.room
  · rw [hplace]
    refine .inr ⟨rfl, ?_⟩
    rw [Circle.toNat_succ (Nat.lt_of_le_of_lt hpage hn)]
    exact hpage

theorem Sturdy.before_placeFor (hin : b.contains i = true) :
    (b.entry i).Before (b.placeFor payload.length) := by
  have hcursor := h.before_cursor hin
  rcases h.placeFor_cases hfits with hplace | ⟨hplace, hpage⟩
  · rw [hplace]
    exact hcursor
  · rw [hplace]
    refine .inl (UInt64.lt_of_le_of_lt hcursor.page_le ?_)
    rw [UInt64.lt_iff_toNat_lt, Circle.toNat_succ (Nat.lt_of_le_of_lt hpage hn)]
    exact Nat.lt_succ_self _

-- The bytes of a payload that is in the window are not written over.
private theorem Sturdy.stored_spill (hin : b.contains i = true) : (b.spill payload).stored i = b.stored i := by
  show (b.data.write b.dataPageSize (b.placeFor payload.length).page _ payload).bytes
    (b.entry i).dataPage (b.entry i).offset.toNat (b.entry i).length.toNat = _
  rcases h.before_placeFor hn hfits hin with hpage | ⟨hpage, hle⟩
  · exact Image.bytes_write_of_ne _ _ (UInt64.ne_of_lt hpage) _ _ _ _
  · rw [hpage, Image.bytes_write_of_disjoint _ _ _ (.inl hle), stored, hpage]

private theorem Sturdy.pages_spill {page : UInt64} (hpage : ((b.spill payload).data page).isSome) :
    page.toNat < n + 1 := by
  rcases Image.isSome_set_iff.mp hpage with rfl | hpage
  · have hroom := h.room_placeFor hn hfits
    omega
  · exact Nat.lt_succ_of_lt (h.pages hpage)

private theorem Sturdy.seek : (b.seek payload).Sturdy n :=
  h.setCursor (h.before_placeFor hn hfits) (h.room_placeFor hn hfits)

private theorem Sturdy.spill : (b.spill payload).Sturdy (n + 1) :=
  ((h.seek hn hfits).mono (Nat.le_succ n)).setData Image.isSome_set (h.pages_spill hn hfits)

private theorem Sturdy.stored_record (hin : b.contains i = true) :
    (b.record payload).stored i = b.stored i := by
  rw [← h.stored_spill hn hfits hin, stored, h.entry_record hin]
  rfl

private theorem Sturdy.record : (b.record payload).Sturdy (n + 1) := by
  have hspill := h.spill hn hfits
  refine Sturdy.setCursor (hspill.setIndex (fun hin => ?_) Image.isSome_set) (fun hin => ?_) (.inl ?_)
  · exact h.entry_record hin
  · have hbefore := h.before_placeFor hn hfits hin
    show ((b.record payload).entry _).Before _
    rw [h.entry_record hin]
    rcases hbefore with hpage | ⟨hpage, hle⟩
    · exact .inl hpage
    · exact .inr ⟨hpage, Nat.le_trans hle (Nat.le_add_right _ _)⟩
  · have hroom := h.room_placeFor hn hfits
    show (b.placeFor payload.length).page.toNat < n + 1
    omega

end Place

-- Whatever an append leaves behind, the window and what is in it are as they were.
theorem Sturdy.stopped (hn : n < UInt64.size) (hstopped : b.Stopped payload b') :
    b'.Sturdy (n + 1) ∧ b.Same b' := by
  cases hstopped with
  | refused => exact ⟨h.mono (Nat.le_succ n), .refl b⟩
  | seek hfits htouched =>
      have hsame : b.Same (b.seek payload) := ⟨⟨fun hin => hin, fun _ => rfl, fun _ => rfl⟩, rfl, rfl⟩
      have hsturdy := (h.seek hn hfits).mono (Nat.le_succ n)
      refine ⟨htouched.sturdy hsturdy ?_, hsame.trans htouched.like.same⟩
      rintro _ rfl
      have hroom := h.room_placeFor hn hfits
      omega
  | spill hfits htouched =>
      have hsame : b.Same (b.spill payload) :=
        ⟨⟨fun hin => hin, fun _ => rfl, fun hin => h.stored_spill hn hfits hin⟩, rfl, rfl⟩
      exact ⟨htouched.sturdy (h.spill hn hfits) (fun _ => False.elim), hsame.trans htouched.like.same⟩
  | record hfits htouched =>
      have hsame : b.Same (b.record payload) := ⟨⟨fun hin => hin, fun hin => h.entry_record hin,
        fun hin => h.stored_record hn hfits hin⟩, rfl, rfl⟩
      exact ⟨htouched.sturdy (h.record hn hfits) (fun _ => False.elim), hsame.trans htouched.like.same⟩

section Publish

variable (hhead : b.head.toNat + 1 < UInt64.size)

include hhead

private theorem Sturdy.tail_le_succ : b.tail ≤ b.head + 1 := by
  have htail := h.tail_le
  rw [UInt64.le_iff_toNat_le] at htail ⊢
  rw [Circle.toNat_succ hhead]
  exact Nat.le_succ_of_le htail

private theorem Sturdy.contains_publish_iff :
    b.publish.contains i = true ↔ b.contains i = true ∨ i = b.head := by
  have hpublish : b.publish.contains i = true ↔ b.tail ≤ i ∧ i < b.head + 1 :=
    contains_iff_of_le (b := b.publish) (h.tail_le_succ hhead) i
  have htail := h.tail_le
  rw [hpublish, h.contains_iff, ← UInt64.toNat_inj]
  simp only [UInt64.lt_iff_toNat_lt, UInt64.le_iff_toNat_le, Circle.toNat_succ hhead] at htail ⊢
  omega

-- The entry at the new index may not be behind the cursor, and its pages have to be there.
private theorem Sturdy.publish (hn : b.head.toNat < n) (hindex : (b.index (Entry.pageOf b.head)).isSome)
    (hdata : (b.data (b.entry b.head).dataPage).isSome) (hstop : (b.entry b.head).stop = b.cursor) :
    b.publish.Sturdy n := by
  have hcases : ∀ {i}, b.publish.contains i = true → b.contains i = true ∨ i = b.head :=
    (h.contains_publish_iff hhead).mp
  have hends : b.publish.ends = b.ends.setWord endsPageSize Log.endsPage headPosition (b.head + 1) := rfl
  have hbefore : ∀ {i}, b.publish.contains i = true → (b.entry i).Before b.cursor := by
    intro i hi
    rcases hcases hi with hi | rfl
    · exact h.before_cursor hi
    · exact hstop ▸ Entry.before_stop _
  refine ⟨h.pageSize_pos, h.pageSize_le, h.tail_le_succ hhead, ?head_le, ?headWord, ?tailWord, ?endsPage,
    fun hin => ?indexPage, fun hin => ?dataPage, fun {i j} hi hj hle => ?ordered, hbefore, h.pages, h.room⟩
  case head_le =>
    show (b.head + 1).toNat ≤ n
    rw [Circle.toNat_succ hhead]
    exact hn
  case headWord =>
    rw [hends]
    exact Image.word_setWord _ _ _ _ _
  case tailWord =>
    rw [hends, Image.word_setWord_of_disjoint _ _ _ _ (by decide)]
    exact h.tailWord
  case endsPage =>
    rw [hends]
    exact Image.isSome_setWord h.endsPage
  case indexPage =>
    rcases hcases hin with hin | rfl
    · exact h.indexPage hin
    · exact hindex
  case dataPage =>
    rcases hcases hin with hin | rfl
    · exact h.dataPage hin
    · exact hdata
  case ordered =>
    show (b.entry i).Before (b.entry j).stop
    rcases hcases hj with hj | rfl
    · rcases hcases hi with hi | rfl
      · exact h.ordered hi hj hle
      · exact absurd hle (UInt64.not_le.mpr ((h.contains_iff j).mp hj).2)
    · rw [hstop]
      exact hbefore hi

end Publish

-- The cursor is where the new payload ends.
private theorem Sturdy.stop_record (hfits : payload.length ≤ b.dataPageSize) :
    ((b.record payload).entry b.head).stop = (b.record payload).cursor := by
  have hmax : (b.nextItem payload).finish ≤ maxDataPageSize :=
    Nat.le_trans (placeFor_offset_add_le hfits) h.pageSize_le
  have hentry : (b.record payload).entry b.head = _ := b.entry_append_head payload
  rw [hentry, Entry.stop, Item.finish_entry hmax]
  rfl

section Append

variable (hhead : b.head.toNat + 1 < UInt64.size)

include hhead

theorem Sturdy.contains_append_iff :
    (b.append payload).contains i = true ↔ b.contains i = true ∨ i = b.head :=
  h.contains_publish_iff hhead

variable (hn : n < UInt64.size) (hfits : payload.length ≤ b.dataPageSize)

include hn hfits

theorem Sturdy.append : (b.append payload).Sturdy (n + 1) := by
  have hrecord := h.record hn hfits
  have hentry : (b.record payload).entry b.head = _ := b.entry_append_head payload
  have hdata : ((b.record payload).data ((b.record payload).entry b.head).dataPage).isSome := by
    rw [hentry]
    exact Image.isSome_write_self b.data _ _ _ _
  rw [← publish_record]
  exact hrecord.publish hhead (Nat.lt_succ_of_le h.head_le) (Image.isSome_write_self _ _ _ _ _) hdata
    (h.stop_record hfits)

theorem Sturdy.retains_append : b.Retains (b.append payload) where
  contains hin := (h.contains_append_iff hhead).mpr (.inl hin)
  entry hin := h.entry_record hin
  stored hin := h.stored_record hn hfits hin

end Append

section Remove

private theorem Sturdy.dropBefore (hin : b.contains index = true) {page : UInt64}
    (hpage : ∀ {i}, b.contains i = true → index ≤ i → page ≤ (b.entry i).dataPage) :
    (b.dropBefore index page).Sturdy n := by
  have hwindow := (h.contains_iff index).mp hin
  have htail : (b.dropBefore index page).tail ≤ (b.dropBefore index page).head := UInt64.le_of_lt hwindow.2
  have hcontains : ∀ {i}, (b.dropBefore index page).contains i = true → b.contains i = true ∧ index ≤ i := by
    intro i hi
    obtain ⟨hle, hlt⟩ := (contains_iff_of_le htail i).mp hi
    exact ⟨(h.contains_iff i).mpr ⟨UInt64.le_trans hwindow.1 hle, hlt⟩, hle⟩
  have hindex : (b.dropBefore index page).index =
      (b.lookUp index).index.without fun other => other < Entry.pageOf index := rfl
  have hdata : (b.dropBefore index page).data = b.data.without fun other => other < page := rfl
  have hends : (b.dropBefore index page).ends =
      b.ends.setWord endsPageSize Log.endsPage tailPosition index := rfl
  refine ⟨h.pageSize_pos, h.pageSize_le, htail, h.head_le, ?headWord, ?tailWord, ?endsPage,
    fun hi => ?indexPage, fun hi => ?dataPage, fun hi hj hle => ?ordered, fun hi => ?before_cursor,
    fun hpage => ?pages, h.room⟩
  case headWord =>
    rw [hends, Image.word_setWord_of_disjoint _ _ _ _ (by decide)]
    exact h.headWord
  case tailWord =>
    rw [hends]
    exact Image.word_setWord _ _ _ _ _
  case endsPage =>
    rw [hends]
    exact Image.isSome_setWord h.endsPage
  case indexPage =>
    obtain ⟨hi, hle⟩ := hcontains hi
    rw [hindex, Image.isSome_without_iff]
    exact ⟨decide_eq_false (UInt64.not_lt.mpr (Entry.pageOf_le_pageOf hle)), Image.isSome_set (h.indexPage hi)⟩
  case dataPage =>
    obtain ⟨hi, hle⟩ := hcontains hi
    rw [hdata, entry_dropBefore b page hle, Image.isSome_without_iff]
    exact ⟨decide_eq_false (UInt64.not_lt.mpr (hpage hi hle)), h.dataPage hi⟩
  case ordered =>
    obtain ⟨hi, hle_i⟩ := hcontains hi
    obtain ⟨hj, hle_j⟩ := hcontains hj
    rw [entry_dropBefore b page hle_i, entry_dropBefore b page hle_j]
    exact h.ordered hi hj hle
  case before_cursor =>
    obtain ⟨hi, hle⟩ := hcontains hi
    rw [entry_dropBefore b page hle]
    exact h.before_cursor hi
  case pages =>
    rw [hdata, Image.isSome_without_iff] at hpage
    exact h.pages hpage.2

theorem Sturdy.removeBefore (hin : b.contains index = true) : (b.removeBefore index).Sturdy n :=
  h.dropBefore hin fun hi hle => (h.ordered hin hi hle).page_le

theorem Sturdy.removeAll : b.removeAll.Sturdy n := by
  have hends : b.removeAll.ends = (b.ends.setWord endsPageSize Log.endsPage headPosition 0).setWord endsPageSize
      Log.endsPage tailPosition 0 := rfl
  have hstart : b.removeAll.Sturdy 0 := by
    refine sturdy_of_nothing h.pageSize_pos h.pageSize_le rfl rfl ?headWord ?tailWord ?endsPage
      (fun _ => rfl) rfl
    case headWord =>
      rw [hends, Image.word_setWord_of_disjoint _ _ _ _ (by decide)]
      exact Image.word_setWord _ _ _ _ _
    case tailWord =>
      rw [hends]
      exact Image.word_setWord _ _ _ _ _
    case endsPage =>
      rw [hends]
      exact Image.isSome_setWord (Image.isSome_setWord h.endsPage)
  exact hstart.mono (Nat.zero_le n)

end Remove

private theorem Sturdy.head_refound (pageSize now : Nat) : (b.refound pageSize now).head = b.head :=
  (Books.head_refound b pageSize now).trans h.headWord

private theorem Sturdy.tail_refound (pageSize now : Nat) : (b.refound pageSize now).tail = b.tail :=
  (Books.tail_refound b pageSize now).trans h.tailWord

theorem Sturdy.contains_last (hdiff : b.head ≠ b.tail) : b.contains (b.head - 1) = true := by
  have htail := h.tail_le
  rw [h.contains_iff]
  rw [Ne, ← UInt64.toNat_inj] at hdiff
  rw [UInt64.le_iff_toNat_le] at htail
  have hone : (1 : UInt64) ≤ b.head := by
    rw [UInt64.le_iff_toNat_le, UInt64.toNat_one]
    omega
  rw [UInt64.le_iff_toNat_le, UInt64.lt_iff_toNat_lt, UInt64.toNat_sub_of_le _ _ hone, UInt64.toNat_one]
  omega

theorem Sturdy.le_last (hin : b.contains i = true) : i ≤ b.head - 1 := by
  have hlt := ((h.contains_iff i).mp hin).2
  rw [UInt64.lt_iff_toNat_lt] at hlt
  have hone : (1 : UInt64) ≤ b.head := by
    rw [UInt64.le_iff_toNat_le, UInt64.toNat_one]
    omega
  rw [UInt64.le_iff_toNat_le, UInt64.toNat_sub_of_le _ _ hone, UInt64.toNat_one]
  omega

private theorem Sturdy.same_refound (pageSize now : Nat) (cursor : Cursor) :
    b.Same { b.refound pageSize now with cursor : Books } := by
  have hhead := h.head_refound pageSize now
  have htail := h.tail_refound pageSize now
  have hindex := b.index_refound pageSize now
  have hdata := b.data_refound pageSize now
  generalize b.refound pageSize now = r at hhead htail hindex hdata ⊢
  have hentry : ∀ i, r.entry i = b.entry i := fun i => by rw [entry, slot, hindex, entry, slot]
  exact {
    contains := fun hin => (contains_congr hhead htail _).trans hin
    entry := fun _ => hentry _
    stored := fun {i} _ => by
      show r.stored i = b.stored i
      rw [stored, hentry, hdata, stored]
    head := hhead
    tail := htail }

theorem Sturdy.same_resumed {pageSize now : Nat} (hresumed : (b.refound pageSize now).Resumed b') : b.Same b' := by
  cases hresumed with
  | empty hsame hrestarts => exact h.same_refound pageSize now _
  | window hdiff =>
      have hsame := h.same_refound pageSize now
        ((b.refound pageSize now).entry ((b.refound pageSize now).head - 1)).stop
      exact hsame.trans (like_lookUp _ _).same

section Reopen

variable {pageSize now : Nat} (hpos : 0 < pageSize) (hle : pageSize ≤ maxDataPageSize)

include hpos hle

private theorem Sturdy.refound {cursor : Cursor}
    (hbefore : ∀ {i}, b.contains i = true → (b.entry i).Before cursor)
    (hroom : cursor.page.toNat < n ∨ cursor.offset = 0 ∧ cursor.page.toNat ≤ n) :
    { b.refound pageSize now with cursor : Books }.Sturdy n := by
  have hsize := b.dataPageSize_refound pageSize now
  have hhead := h.head_refound pageSize now
  have htail := h.tail_refound pageSize now
  have hindex := b.index_refound pageSize now
  have hdata := b.data_refound pageSize now
  have hends := b.ends_refound pageSize now
  generalize b.refound pageSize now = r at hsize hhead htail hindex hdata hends ⊢
  refine h.of_window (hsize.symm ▸ hpos) (hsize.symm ▸ hle) hhead htail (fun position => ?_) ?_ (fun index => ?_)
    (hindex.symm ▸ id) (hdata.symm ▸ id) (hdata.symm ▸ h.pages) hbefore hroom
  · show r.ends.word _ _ = _
    rw [hends, Image.word_touch]
  · show (r.ends _).isSome
    rw [hends]
    exact Image.isSome_touch h.endsPage
  · show r.slot index = b.slot index
    rw [slot, hindex, slot]

theorem Sturdy.resumed (hresumed : (b.refound pageSize now).Resumed b') :
    b'.Sturdy n := by
  have hhead := h.head_refound pageSize now
  have htail := h.tail_refound pageSize now
  have hindex := b.index_refound pageSize now
  have hdata := b.data_refound pageSize now
  cases hresumed with
  | empty hsame hrestarts =>
      rw [hhead, htail] at hsame
      refine h.refound hpos hle (fun {i} hi => ?_) ?_
      · obtain ⟨hle, hlt⟩ := (h.contains_iff i).mp hi
        rw [hsame] at hlt
        exact absurd hle (UInt64.not_le.mpr hlt)
      · rcases hrestarts with ⟨rfl, -⟩ | ⟨last, hlast, rfl⟩
        · exact .inr ⟨rfl, Nat.zero_le _⟩
        · rw [hdata] at hlast
          have hpage := h.pages hlast
          refine .inr ⟨rfl, ?_⟩
          show (last + 1).toNat ≤ n
          rw [UInt64.toNat_add]
          exact Nat.le_trans (Nat.mod_le _ _) hpage
  | window hdiff =>
      rw [hhead, htail] at hdiff
      have hlast := h.contains_last hdiff
      have hentry : (b.refound pageSize now).entry (b.head - 1) = b.entry (b.head - 1) := by
        rw [entry, slot, hindex, entry, slot]
      have hbehind : ∀ {i}, b.contains i = true → (b.entry i).Before (b.entry (b.head - 1)).stop :=
        fun hi => h.ordered hi hlast (h.le_last hi)
      have hresume : { b.refound pageSize now with cursor := (b.entry (b.head - 1)).stop : Books }.Sturdy n :=
        h.refound hpos hle hbehind (.inl (h.pages (h.dataPage hlast)))
      rw [resume, hhead, hentry]
      exact hresume.lookUp (b.head - 1)

end Reopen

-- All pages that are read from are there, so nothing is missed if what is there is granted.
theorem Sturdy.heard_eq {grant : Folder → UInt64 → Except Error Unit}
    (hgrant : ∀ f page, (b.image f page).isSome → grant f page = .ok ()) (dataPageSize : Nat) (index : UInt64) :
    (b.sized dataPageSize).heard grant index = (b.sized dataPageSize).heard (fun _ _ => .ok ()) index := by
  unfold heard
  split
  · next hin =>
    have hindex := hgrant .index _ (h.indexPage hin)
    have hdata : grant .data ((b.sized dataPageSize).entry index).dataPage = .ok () :=
      hgrant .data _ (h.dataPage hin)
    rw [hindex, hdata]
  · rfl

theorem Sturdy.dated_eq {grant : Folder → UInt64 → Except Error Unit}
    (hgrant : ∀ f page, (b.image f page).isSome → grant f page = .ok ()) (index : UInt64) :
    b.dated grant index = b.dated (fun _ _ => .ok ()) index := by
  unfold dated
  split
  · next hin => rw [hgrant .index _ (h.indexPage hin)]
  · rfl

end Sturdy

end

end Books

end Spool.Log
