import Spool.Proofs.Cache.Footprint
import Spool.Proofs.Log.Reading
import Spool.Proofs.Log.Storage

namespace Spool

namespace Cache

theorem Serves.exists_pages {c : Cache} {d : Disk} {folder : Location} {size size' : Nat} {img : Image}
    {pages : UInt64 → Prop} (h : c.Serves d folder size img) (hconsists : img.Consists size' pages) :
    ∃ existing, c.existingIndexes d = .ok existing ∧ existing.Nodup ∧
      (∀ page, page ∈ existing ↔ pages page) ∧ c.diskUsage d = .ok (existing.length * size') := by
  obtain ⟨existing, hexisting, hnodup, hmem, husage⟩ := Cache.exists_pages h.sound
    (h.image ▸ hconsists.size_eq)
  refine ⟨existing, hexisting, hnodup, fun page => (hmem page).trans ?_, husage⟩
  rw [h.image]
  exact hconsists.isSome_iff page

end Cache

namespace Log

namespace Ledger

-- The pages that the payloads are on, and the pages of their entries.
def HasData (g : Ledger) (page : UInt64) : Prop :=
  ∃ (k : Nat) (x : Item), g.items[k]? = some x ∧ x.page = page

def HasIndex (g : Ledger) (page : UInt64) : Prop :=
  ∃ k, k < g.items.length ∧ Entry.pageOf (g.tail + UInt64.ofNat k) = page

-- Each item is on the page of the one in front of it or on the next.
def Joined (g : Ledger) : Prop :=
  ∀ (k : Nat) (x y : Item), g.items[k]? = some x → g.items[k + 1]? = some y →
    y.page = x.page ∨ y.page.toNat = x.page.toNat + 1

section

variable {g : Ledger} {n : Nat} {payload : Bytes} {index page : UInt64} {x y : Item} {j k : Nat}

theorem Lawful.page_le (h : g.Lawful) (hj : g.items[j]? = some x) (hk : g.items[k]? = some y)
    (hle : j ≤ k) : x.page ≤ y.page := by
  rcases Nat.lt_or_eq_of_le hle with hlt | rfl
  · rcases h.ordered hj hk hlt with hpage | ⟨hpage, -⟩
    · exact UInt64.le_of_lt hpage
    · exact UInt64.le_of_eq hpage
  · cases hj.symm.trans hk
    exact UInt64.le_refl _

theorem Straight.toNat_index (h : g.Straight n) (hn : n < UInt64.size) (hk : k ≤ g.items.length) :
    (g.tail + UInt64.ofNat k).toNat = g.tail.toNat + k := by
  have hreach := h.reach
  exact Circle.toNat_add_ofNat (by omega)

theorem Straight.pageOf_le (h : g.Straight n) (hn : n < UInt64.size) (hk : k ≤ g.items.length)
    (hle : j ≤ k) : Entry.pageOf (g.tail + UInt64.ofNat j) ≤ Entry.pageOf (g.tail + UInt64.ofNat k) := by
  apply Entry.pageOf_le_pageOf
  rw [UInt64.le_iff_toNat_le, h.toNat_index hn hk, h.toNat_index hn (Nat.le_trans hle hk)]
  exact Nat.add_le_add_left hle _

-- A window that does not go round is one of numbers.
theorem Straight.toNat_head (h : g.Straight n) (hn : n < UInt64.size) :
    g.head.toNat = g.tail.toNat + g.items.length :=
  h.toNat_index hn (Nat.le_refl _)

theorem Straight.mem_window_iff (h : g.Straight n) (hn : n < UInt64.size) (i : UInt64) :
    g.tail ≤ i ∧ i < g.head ↔ (i - g.tail).toNat < g.items.length := by
  rw [UInt64.lt_iff_toNat_lt, h.toNat_head hn]
  constructor
  · rintro ⟨hle, hlt⟩
    rw [UInt64.toNat_sub_of_le _ _ hle]
    rw [UInt64.le_iff_toNat_le] at hle
    omega
  · intro hlt
    have hindex := h.toNat_index hn (Nat.le_of_lt hlt)
    rw [Circle.ofNat_sub_toNat] at hindex
    rw [UInt64.le_iff_toNat_le]
    omega

theorem hasData_iff (h : g.Lawful) (page : UInt64) :
    g.HasData page ↔ ∃ i x, g.item? i = some x ∧ x.page = page := by
  constructor
  · rintro ⟨k, x, hk, hpage⟩
    exact ⟨_, x, item?_tail_add h hk, hpage⟩
  · rintro ⟨i, x, hi, hpage⟩
    exact ⟨_, x, hi, hpage⟩

theorem hasIndex_iff (h : g.Lawful) (page : UInt64) :
    g.HasIndex page ↔ ∃ i, (∃ x, g.item? i = some x) ∧ Entry.pageOf i = page := by
  constructor
  · rintro ⟨k, hk, hpage⟩
    exact ⟨_, ⟨_, item?_tail_add h (List.getElem?_eq_getElem hk)⟩, hpage⟩
  · rintro ⟨i, ⟨x, hx⟩, hpage⟩
    refine ⟨_, lt_length hx, ?_⟩
    rwa [Circle.ofNat_sub_toNat]

theorem hasData_append_iff :
    (g.append payload).HasData page ↔ page = (g.placeFor payload.length).page ∨ g.HasData page := by
  constructor
  · rintro ⟨k, x, hk, rfl⟩
    rcases getElem?_append hk with hk | ⟨-, rfl⟩
    · exact .inr ⟨k, x, hk, rfl⟩
    · exact .inl rfl
  · rintro (rfl | ⟨k, x, hk, rfl⟩)
    · exact ⟨g.items.length, _, List.getElem?_concat_length, rfl⟩
    · refine ⟨k, x, ?_, rfl⟩
      rw [items_append, List.getElem?_append_left (lt_length hk)]
      exact hk

theorem hasIndex_append_iff :
    (g.append payload).HasIndex page ↔ page = Entry.pageOf g.head ∨ g.HasIndex page := by
  have hlength : (g.append payload).items.length = g.items.length + 1 := by
    rw [items_append, List.length_append, List.length_singleton]
  constructor
  · rintro ⟨k, hk, rfl⟩
    rw [hlength] at hk
    rcases Nat.lt_or_eq_of_le (Nat.le_of_lt_succ hk) with hlt | rfl
    · exact .inr ⟨k, hlt, rfl⟩
    · exact .inl rfl
  · rintro (rfl | ⟨k, hk, rfl⟩)
    · exact ⟨g.items.length, hlength ▸ Nat.lt_succ_self _, rfl⟩
    · exact ⟨k, hlength ▸ Nat.lt_succ_of_lt hk, rfl⟩

-- The pages in front of an item's hold no payload behind it.
theorem hasData_removeBefore_iff (h : g.Lawful) (hx : g.item? index = some x) :
    (g.removeBefore index).HasData page ↔ g.HasData page ∧ ¬page < x.page := by
  constructor
  · rintro ⟨n, z, hz, rfl⟩
    obtain ⟨y, hy, rfl⟩ := exists_of_getElem?_removeBefore hz
    have hle : x.page ≤ y.page := h.page_le hx hy (Nat.le_add_right _ _)
    exact ⟨⟨_, y, hy, rfl⟩, UInt64.not_lt.mpr hle⟩
  · rintro ⟨⟨k, y, hk, rfl⟩, hnot⟩
    have hkept : ∀ m y, g.items[(index - g.tail).toNat + m]? = some y →
        (g.removeBefore index).HasData y.page := by
      intro m y hy
      have hkept := getElem?_removeBefore g index m
      rw [hy] at hkept
      exact ⟨m, _, hkept, rfl⟩
    rcases Nat.le_total (index - g.tail).toNat k with hle | hle
    · rw [← Nat.add_sub_of_le hle] at hk
      exact hkept _ y hk
    · have hsame := UInt64.le_antisymm (h.page_le hk hx hle) (UInt64.not_lt.mp hnot)
      rw [hsame]
      exact hkept 0 x hx

theorem hasIndex_removeBefore_iff (h : g.Straight n) (hn : n < UInt64.size)
    (hx : g.item? index = some x) :
    (g.removeBefore index).HasIndex page ↔ g.HasIndex page ∧ ¬page < Entry.pageOf index := by
  have hlt : (index - g.tail).toNat < g.items.length := lt_length hx
  have hindex := Circle.ofNat_sub_toNat index g.tail
  have hmove : ∀ m, index + UInt64.ofNat m = g.tail + UInt64.ofNat ((index - g.tail).toNat + m) := by
    intro m
    rw [← Circle.add_ofNat_add, hindex]
  have hlength := length_removeBefore g index
  constructor
  · rintro ⟨m, hm, rfl⟩
    rw [hlength] at hm
    refine ⟨⟨_, by omega, congrArg Entry.pageOf (hmove m).symm⟩, UInt64.not_lt.mpr ?_⟩
    show Entry.pageOf index ≤ Entry.pageOf (index + UInt64.ofNat m)
    have hkept : (index - g.tail).toNat + m ≤ g.items.length := by omega
    have hle := h.pageOf_le hn hkept (Nat.le_add_right _ m)
    rwa [hindex, ← hmove m] at hle
  · rintro ⟨⟨k, hk, rfl⟩, hnot⟩
    rcases Nat.le_total (index - g.tail).toNat k with hle | hle
    · refine ⟨k - (index - g.tail).toNat, by omega, ?_⟩
      show Entry.pageOf (index + _) = _
      rw [hmove, Nat.add_sub_of_le hle]
    · refine ⟨0, by omega, ?_⟩
      have hbelow := h.pageOf_le hn (Nat.le_of_lt hlt) hle
      rw [hindex] at hbelow
      show Entry.pageOf (index + UInt64.ofNat 0) = _
      rw [show index + UInt64.ofNat 0 = index from UInt64.add_zero index]
      exact UInt64.le_antisymm (UInt64.not_lt.mp hnot) hbelow

theorem Joined.append (h : g.Joined) (hlawful : g.Lawful) (hpages : g.cursor.page.toNat + 1 < UInt64.size) :
    (g.append payload).Joined := by
  intro k x y hx hy
  rcases getElem?_append hy with hy | ⟨hlast, rfl⟩
  · rcases getElem?_append hx with hx | ⟨rfl, -⟩
    · exact h k x y hx hy
    · exact absurd (lt_length hy) (by omega)
  · have hx' : g.items[g.items.length - 1]? = some x := by
      rcases getElem?_append hx with hx | ⟨rfl, -⟩
      · rwa [← hlast, Nat.add_sub_cancel]
      · omega
    have hcursor := hlawful.last hx'
    show (g.placeFor payload.length).page = _ ∨ _
    unfold placeFor
    rw [hcursor] at hpages ⊢
    split
    · refine .inr ?_
      show (x.page + 1).toNat = _
      rw [UInt64.toNat_add, UInt64.toNat_one]
      exact Nat.mod_eq_of_lt hpages
    · exact .inl rfl

theorem Joined.removeBefore (h : g.Joined) (index : UInt64) : (g.removeBefore index).Joined := by
  intro k x y hx hy
  obtain ⟨x', hx', rfl⟩ := exists_of_getElem?_removeBefore hx
  obtain ⟨y', hy', rfl⟩ := exists_of_getElem?_removeBefore hy
  exact h _ x' y' hx' hy'

-- From one item to a later one, no page is left out.
private theorem Joined.hasData_between (h : g.Joined) (d : Nat) (hj : g.items[j]? = some x)
    (hk : g.items[j + d]? = some y) (hle : x.page ≤ page) (hle' : page ≤ y.page) : g.HasData page := by
  induction d generalizing y with
  | zero =>
      cases hj.symm.trans hk
      exact ⟨j, x, hj, UInt64.le_antisymm hle hle'⟩
  | succ d ih =>
      have hlt := lt_length hk
      obtain ⟨z, hz⟩ : ∃ z, g.items[j + d]? = some z := ⟨_, List.getElem?_eq_getElem (by omega)⟩
      by_cases hbelow : page ≤ z.page
      · exact ih hz hbelow
      · refine ⟨_, y, hk, UInt64.le_antisymm ?_ hle'⟩
        rw [UInt64.le_iff_toNat_le] at hbelow hle' ⊢
        rcases h _ z y hz hk with hsame | hnext
        · exact absurd (hsame ▸ hle') hbelow
        · omega

theorem Joined.hasData_of_le (h : g.Joined) (hlawful : g.Lawful) {first last : UInt64}
    (hfirst : g.HasData first) (hlast : g.HasData last) (hle : first ≤ page) (hle' : page ≤ last) :
    g.HasData page := by
  obtain ⟨j, x, hj, rfl⟩ := hfirst
  obtain ⟨k, y, hk, rfl⟩ := hlast
  rcases Nat.le_total j k with hjk | hkj
  · rw [← Nat.add_sub_of_le hjk] at hk
    exact h.hasData_between _ hj hk hle hle'
  · have hback := hlawful.page_le hk hj hkj
    exact ⟨j, x, hj, UInt64.le_antisymm hle (UInt64.le_trans hle' hback)⟩

end

end Ledger

namespace Books

-- The page files are those that the ledger needs.
structure Trim (b : Books) (pageSize : Nat) (g : Ledger) (n : Nat) : Prop where
  keeps : b.Keeps g
  within : g.Within n
  straight : g.Straight n
  joined : g.Joined
  pageSize_eq : b.dataPageSize = pageSize
  data : b.data.Consists pageSize g.HasData
  index : b.index.Consists Entry.pageSize g.HasIndex
  ends : b.ends.Consists endsPageSize (· = endsPage)

section

variable {b b' : Books} {g : Ledger} {n pageSize : Nat} {payload : Bytes} {index : UInt64}

theorem Trim.mono (h : b.Trim pageSize g n) {m : Nat} (hle : n ≤ m) : b.Trim pageSize g m :=
  { h with
    within := ⟨Nat.le_trans h.within.items hle, Nat.le_trans h.within.pages hle⟩
    straight := ⟨Nat.le_trans h.straight.reach hle, h.straight.intact⟩ }

theorem Trim.entry_dataPage (h : b.Trim pageSize g n) {x : Item} (hx : g.item? index = some x) :
    (b.entry index).dataPage = x.page := by
  obtain ⟨timestamp, hentry⟩ := h.keeps.entry hx (h.straight.intact hx)
  rw [hentry]
  rfl

theorem hasIndex_of_item? {g : Ledger} {x : Item} (hx : g.item? index = some x) :
    g.HasIndex (Entry.pageOf index) :=
  ⟨_, Ledger.lt_length hx, congrArg Entry.pageOf (Circle.ofNat_sub_toNat index g.tail)⟩

-- Reading an item makes no page.
theorem Trim.visit (h : b.Trim pageSize g n) (hin : b.contains index = true) :
    (b.visit index).Trim pageSize g n := by
  obtain ⟨x, hx⟩ := h.keeps.item?_isSome hin
  have hdata : (b.visit index).data = b.data.touch pageSize (b.entry index).dataPage := by
    rw [← h.pageSize_eq]
    rfl
  exact {
    h with
    keeps := h.keeps.visit hx
    data := hdata ▸ h.data.touch ⟨_, x, hx, (h.entry_dataPage hx).symm⟩
    index := h.index.touch (hasIndex_of_item? hx) }

theorem Trim.later (h : b.Trim pageSize g n) (hlater : b.Later b') : b'.Trim pageSize g n := by
  induction hlater with
  | refl => exact h
  | visit _ hin ih => exact ih.visit hin
  | setNow _ now ih => exact { ih with keeps := ih.keeps.setNow now }

theorem Trim.append (h : b.Trim pageSize g n) (hfits : payload.length ≤ b.dataPageSize)
    (hn : n + 1 < UInt64.size) : (b.append payload).Trim pageSize (g.append payload) (n + 1) := by
  have hitems := h.within.items
  have hpages := h.within.pages
  have hdata : (b.append payload).data = b.data.write pageSize (g.placeFor payload.length).page
      (g.placeFor payload.length).offset payload := by
    rw [← h.pageSize_eq, ← h.keeps.placeFor_eq]
    rfl
  have hindex := h.index.write (Entry.pageOf b.head) (Entry.positionOf b.head)
    (entryFor (b.placeFor payload.length) payload b.now).encode
  exact {
    keeps := h.keeps.append (h.keeps.dataPageSize ▸ hfits) (by omega) (by omega)
    within := h.within.append
    straight := h.straight.append
    joined := h.joined.append h.keeps.lawful (by omega)
    pageSize_eq := h.pageSize_eq
    data := hdata ▸ (h.data.write _ _ _).congr fun page => Ledger.hasData_append_iff.symm
    index := hindex.congr fun page => by
      rw [h.keeps.head]
      exact Ledger.hasIndex_append_iff.symm
    ends := h.ends.setWord rfl _ _ }

private theorem Trim.dropBefore {x : Item} (h : b.Trim pageSize g n) (hn : n < UInt64.size)
    (hx : g.item? index = some x)
    (hkeeps : (b.dropBefore index x.page).Keeps (g.removeBefore index)) :
    (b.dropBefore index x.page).Trim pageSize (g.removeBefore index) n where
  keeps := hkeeps
  within := h.within.removeBefore
  straight := h.straight.removeBefore hn (Ledger.lt_length hx)
  joined := h.joined.removeBefore index
  pageSize_eq := h.pageSize_eq
  data := (h.data.without _).congr fun page => by
    rw [Ledger.hasData_removeBefore_iff h.keeps.lawful hx, decide_eq_false_iff_not]
  index := ((h.index.touch (hasIndex_of_item? hx)).without _).congr fun page => by
    rw [Ledger.hasIndex_removeBefore_iff h.straight hn hx, decide_eq_false_iff_not]
  ends := h.ends.setWord rfl _ _

theorem Trim.removeBefore (h : b.Trim pageSize g n) (hn : n < UInt64.size)
    (hin : b.contains index = true) :
    (b.removeBefore index).Trim pageSize (g.removeBefore index) n := by
  obtain ⟨x, hx⟩ := h.keeps.item?_isSome hin
  have hkeeps := h.keeps.removeBefore hx
  unfold Books.removeBefore at hkeeps ⊢
  rw [h.entry_dataPage hx] at hkeeps ⊢
  exact h.dropBefore hn hx hkeeps

theorem Trim.removeAll (h : b.Trim pageSize g n) : b.removeAll.Trim pageSize g.removeAll n where
  keeps := h.keeps.removeAll
  within := Ledger.Within.start _ _ _
  straight := Ledger.Straight.start_zero _ _
  joined k x y hx := by cases hx
  pageSize_eq := h.pageSize_eq
  data := by
    refine (h.data.without fun _ => true).congr fun page => ?_
    simp [Ledger.HasData, Ledger.removeAll, Ledger.start]
  index := by
    refine (h.index.without fun _ => true).congr fun page => ?_
    simp [Ledger.HasIndex, Ledger.removeAll, Ledger.start]
  ends := (h.ends.setWord rfl _ _).setWord rfl _ _

section Reopen

private theorem Trim.found (h : b.Trim pageSize g n) (now : Nat) (hkeeps : b'.Keeps g)
    (hsize : b'.dataPageSize = (b.refound pageSize now).dataPageSize)
    (hdata : b'.data = (b.refound pageSize now).data)
    (hindex : b'.index.Consists Entry.pageSize g.HasIndex)
    (hends : b'.ends = (b.refound pageSize now).ends) : b'.Trim pageSize g n where
  keeps := hkeeps
  within := h.within
  straight := h.straight
  joined := h.joined
  pageSize_eq := hsize.trans (dataPageSize_refound _ _ _)
  data := by
    rw [hdata, data_refound]
    exact h.data
  index := hindex
  ends := by
    rw [hends, ends_refound]
    exact h.ends.touch rfl

-- The page of the last entry, from which the cursor is taken, is there.
theorem Trim.hasIndex_last (h : b.Trim pageSize g n) (hnil : g.items ≠ []) (now : Nat) :
    g.HasIndex (Entry.pageOf ((b.refound pageSize now).head - 1)) := by
  have hlength : g.items.length - 1 + 1 = g.items.length :=
    Nat.sub_add_cancel (List.length_pos_iff.mpr hnil)
  refine ⟨g.items.length - 1, by omega, congrArg Entry.pageOf ?_⟩
  rw [head_refound, h.keeps.headWord, Ledger.head, ← hlength, Circle.add_ofNat_succ, Nat.add_sub_cancel]
  exact (UInt64.add_sub_cancel _ _).symm

end Reopen

end

end Books

section

variable {dir : Path} {base : Location} {s : Host × Log} {b : Books} {g : Ledger} {n pageSize : Nat}

-- Opening a log again makes no page.
theorem Shows.reopen_trim (h : Shows dir base s b) (htrim : b.Trim pageSize g n) (policy : CachePolicy) :
    ∃ l b', Step.Ends (Log.open dir pageSize policy) s.1 (.ok l) (fun host =>
        Shows dir base (host, l) b' ∧ Disk.Frame (base :: folders base) s.1.disk host.disk) ∧
      b'.Trim pageSize g n := by
  have hsize : pageSize = g.pageSize := htrim.pageSize_eq.symm.trans htrim.keeps.dataPageSize
  have hsame : { g with pageSize : Ledger } = g := by rw [hsize]
  have hlawful := htrim.keeps.lawful
  obtain ⟨l, b', hopen, hkeeps, hfound⟩ := h.reopen (hsize ▸ hlawful.pageSize_pos)
    (hsize ▸ hlawful.pageSize_le) policy htrim.keeps htrim.straight.intact
  rw [hsame] at hkeeps
  refine ⟨l, b', hopen, ?_⟩
  rcases hfound with rfl | ⟨hnil, rfl⟩
  · refine htrim.found s.1.now hkeeps rfl rfl ?_ rfl
    rw [Books.index_refound]
    exact htrim.index
  · refine htrim.found s.1.now hkeeps rfl rfl ?_ rfl
    have htouched := htrim.index.touch (htrim.hasIndex_last hnil s.1.now)
    rw [← Books.index_refound b pageSize s.1.now] at htouched
    exact htouched

theorem trim_found {host : Host} (h : host.disk.Vacant dir base) (hpos : 0 < pageSize)
    (hle : pageSize ≤ maxDataPageSize) :
    (Books.found pageSize base host).Trim pageSize (.start pageSize 0) 0 := by
  have hnone : ∀ name page, host.disk.image (name :: base) page = none := h.image_eq_none
  let fresh := Books.fresh pageSize host.now (host.disk.image (indexDir :: base))
    (host.disk.image (dataDir :: base)) (host.disk.image (endsDir :: base))
  have hfound : Books.found pageSize base host = fresh.refound pageSize host.now := rfl
  have hkeeps := (startsAt_zero h).keeps hpos hle
  rw [hfound] at hkeeps ⊢
  exact {
    keeps := hkeeps
    within := Ledger.Within.start _ _ _
    straight := Ledger.Straight.start_zero _ _
    joined := fun k x y hx => by cases hx
    pageSize_eq := Books.dataPageSize_refound _ _ _
    data := by
      rw [Books.data_refound]
      refine (Image.consists_of_none (hnone dataDir) pageSize).congr fun page => ?_
      simp [Ledger.HasData, Ledger.start]
    index := by
      rw [Books.index_refound]
      refine (Image.consists_of_none (hnone indexDir) Entry.pageSize).congr fun page => ?_
      simp [Ledger.HasIndex, Ledger.start]
    ends := by
      rw [Books.ends_refound]
      have hset := (Image.consists_of_none (hnone endsDir) endsPageSize)
      refine (hset.set (hset.size_mapped endsPage) endsPage).congr fun page => ?_
      simp }

-- The page files of a log are those that the window needs: the data pages that its entries name, one
-- behind another, and the index pages that its indexes are on. Each has the size of a page.
structure Tidy (s : Host × Log) (pageSize : Nat) (data index : List UInt64) : Prop where
  dataPages : s.2.dataPages s.1.disk = .ok data
  indexPages : s.2.index.existingIndexes s.1.disk = .ok index
  nodup : data.Nodup ∧ index.Nodup
  entry : ∀ i, s.2.tail ≤ i → i < s.2.head → (entryAt s i).isSome
  mem_data_iff : ∀ page, page ∈ data ↔
    ∃ i e, s.2.tail ≤ i ∧ i < s.2.head ∧ entryAt s i = some e ∧ e.dataPage = page
  consecutive : ∀ first page last, first ∈ data → last ∈ data → first ≤ page → page ≤ last → page ∈ data
  mem_index_iff : ∀ page, page ∈ index ↔
    ∃ i, s.2.tail ≤ i ∧ i < s.2.head ∧ i.toNat / 131072 = page.toNat
  diskUsage : s.2.diskUsage s.1.disk =
    .ok (index.length * Entry.pageSize + data.length * pageSize + 16)

private theorem pageOf_eq_iff {i page : UInt64} :
    Entry.pageOf i = page ↔ i.toNat / 131072 = page.toNat := by
  have hlt : i.toNat / Entry.perPage < UInt64.size :=
    Nat.lt_of_le_of_lt (Nat.div_le_self _ _) (UInt64.toNat_lt i)
  rw [← UInt64.toNat_inj, Entry.pageOf, Circle.toNat_ofNat hlt]
  rfl

-- The window is that of the ledger, and the entry of each item names the page that it is on.
private theorem Shows.mem_window_iff (h : Shows dir base s b) (htrim : b.Trim pageSize g n)
    (hn : n < UInt64.size) (i : UInt64) :
    s.2.tail ≤ i ∧ i < s.2.head ↔ ∃ x, g.item? i = some x := by
  rw [h.tail, h.head, htrim.keeps.tail, htrim.keeps.head, htrim.straight.mem_window_iff hn]
  exact ⟨fun hlt => ⟨_, List.getElem?_eq_getElem hlt⟩, fun ⟨_, hx⟩ => Ledger.lt_length hx⟩

private theorem Shows.exists_entry (h : Shows dir base s b) (htrim : b.Trim pageSize g n) {i : UInt64}
    {x : Item} (hx : g.item? i = some x) : ∃ e, entryAt s i = some e ∧ e.dataPage = x.page := by
  obtain ⟨timestamp, hentry⟩ := entryAt_eq h htrim.keeps hx (htrim.straight.intact hx)
  exact ⟨_, hentry, rfl⟩

theorem Shows.tidy (h : Shows dir base s b) (htrim : b.Trim pageSize g n) (hn : n < UInt64.size) :
    ∃ data index, Tidy s pageSize data index := by
  have hlawful := htrim.keeps.lawful
  have hwindow := h.mem_window_iff htrim hn
  obtain ⟨data, hdata, hnodup, hmem, husage⟩ := h.data.exists_pages htrim.data
  obtain ⟨index, hindex, hnodup', hmem', husage'⟩ := h.index.exists_pages htrim.index
  obtain ⟨ends, -, hnodup'', hmem'', husage''⟩ := h.ends.exists_pages htrim.ends
  refine ⟨data, index, hdata, hindex, ⟨hnodup, hnodup'⟩, ?entry, ?mem_data_iff, ?consecutive,
    ?mem_index_iff, ?diskUsage⟩
  case entry =>
    intro i hle hlt
    obtain ⟨x, hx⟩ := (hwindow i).mp ⟨hle, hlt⟩
    obtain ⟨e, he, -⟩ := h.exists_entry htrim hx
    exact Option.isSome_iff_exists.mpr ⟨e, he⟩
  case mem_data_iff =>
    intro page
    rw [hmem, Ledger.hasData_iff hlawful]
    constructor
    · rintro ⟨i, x, hx, rfl⟩
      obtain ⟨hle, hlt⟩ := (hwindow i).mpr ⟨x, hx⟩
      obtain ⟨e, he, hpage⟩ := h.exists_entry htrim hx
      exact ⟨i, e, hle, hlt, he, hpage⟩
    · rintro ⟨i, e, hle, hlt, he, rfl⟩
      obtain ⟨x, hx⟩ := (hwindow i).mp ⟨hle, hlt⟩
      obtain ⟨e', he', hpage⟩ := h.exists_entry htrim hx
      cases he.symm.trans he'
      exact ⟨i, x, hx, hpage.symm⟩
  case consecutive =>
    intro first page last hfirst hlast hle hle'
    rw [hmem] at hfirst hlast ⊢
    exact htrim.joined.hasData_of_le hlawful hfirst hlast hle hle'
  case mem_index_iff =>
    intro page
    rw [hmem', Ledger.hasIndex_iff hlawful]
    simp only [← hwindow, pageOf_eq_iff, and_assoc]
  case diskUsage =>
    rw [Cache.eq_singleton_of_nodup hnodup'' hmem''] at husage''
    rw [Log.diskUsage, husage, husage', husage'']
    rfl

-- With one item there is one page of each kind.
theorem Tidy.of_single {data index : List UInt64} (h : Tidy s pageSize data index)
    (hsingle : s.2.head.toNat = s.2.tail.toNat + 1) :
    ∃ page other, data = [page] ∧ index = [other] := by
  have hwindow : ∀ i, s.2.tail ≤ i ∧ i < s.2.head ↔ i = s.2.tail := by
    intro i
    rw [UInt64.le_iff_toNat_le, UInt64.lt_iff_toNat_lt, hsingle, ← UInt64.toNat_inj]
    omega
  obtain ⟨hle, hlt⟩ := (hwindow s.2.tail).mpr rfl
  obtain ⟨e, he⟩ := Option.isSome_iff_exists.mp (h.entry _ hle hlt)
  refine ⟨e.dataPage, Entry.pageOf s.2.tail, Cache.eq_singleton_of_nodup h.nodup.1 fun page => ?_,
    Cache.eq_singleton_of_nodup h.nodup.2 fun page => ?_⟩
  · rw [h.mem_data_iff]
    constructor
    · rintro ⟨i, e', hle, hlt, he', rfl⟩
      obtain rfl := (hwindow i).mp ⟨hle, hlt⟩
      cases he.symm.trans he'
      rfl
    · rintro rfl
      exact ⟨_, e, hle, hlt, he, rfl⟩
  · rw [h.mem_index_iff]
    constructor
    · rintro ⟨i, hle, hlt, hpage⟩
      obtain rfl := (hwindow i).mp ⟨hle, hlt⟩
      exact (pageOf_eq_iff.mpr hpage).symm
    · rintro rfl
      exact ⟨_, hle, hlt, pageOf_eq_iff.mp rfl⟩

end

end Log

end Spool
