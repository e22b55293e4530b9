import Spool.Log.Basic
import Spool.Proofs.Log.Circle
import Spool.Proofs.Log.Slot

namespace Spool.Log

structure Item where
  page : UInt64
  offset : Nat
  payload : Bytes
  -- The size of data pages when the item was appended.
  pageSize : Nat
  -- Whether the page of its entry was deleted.
  lost : Bool
deriving DecidableEq

namespace Item

def finish (x : Item) : Nat :=
  x.offset + x.payload.length

-- Nothing from a place on belongs to the item.
def Before (x : Item) (place : Cursor) : Prop :=
  x.page < place.page ∨ x.page = place.page ∧ x.finish ≤ place.offset

def start (x : Item) : Cursor :=
  ⟨x.page, x.offset⟩

theorem Before.trans {x y : Item} {place : Cursor} (h : x.Before y.start) (h' : y.Before place) :
    x.Before place := by
  have hstart : y.start.offset ≤ y.finish := Nat.le_add_right _ _
  rcases h with h | ⟨h, hle⟩
  · rcases h' with h' | ⟨h', -⟩
    · exact Or.inl (UInt64.lt_trans h h')
    · exact Or.inl (h' ▸ h)
  · rcases h' with h' | ⟨h', hle'⟩
    · exact Or.inl (h ▸ h')
    · exact Or.inr ⟨h.trans h', Nat.le_trans hle (Nat.le_trans hstart hle')⟩

theorem before_end (x : Item) : x.Before ⟨x.page, x.finish⟩ :=
  Or.inr ⟨rfl, Nat.le_refl _⟩

end Item

-- The retained items of a log one behind another, without bytes, pages or caches.
structure Ledger where
  -- The size of data pages now.
  pageSize : Nat
  tail : UInt64
  items : List Item
  cursor : Cursor

namespace Ledger

-- An empty window that starts at some index.
def start (pageSize : Nat) (tail : UInt64) : Ledger where
  pageSize
  tail
  items := []
  cursor := ⟨0, 0⟩

def head (g : Ledger) : UInt64 :=
  g.tail + UInt64.ofNat g.items.length

-- The item at an index of the window.
def item? (g : Ledger) (index : UInt64) : Option Item :=
  g.items[(index - g.tail).toNat]?

def placeFor (g : Ledger) (length : Nat) : Cursor :=
  if g.pageSize < g.cursor.offset + length then ⟨g.cursor.page + 1, 0⟩ else g.cursor

def append (g : Ledger) (payload : Bytes) : Ledger :=
  let place := g.placeFor payload.length
  { g with
    items := g.items ++ [⟨place.page, place.offset, payload, g.pageSize, false⟩]
    cursor := { place with offset := place.offset + payload.length } }

def fetch (g : Ledger) (index : UInt64) : Except Error Bytes :=
  match g.item? index with
  | none => .error (.outOfRange index g.tail g.head)
  | some x =>
    if x.lost then .error (.corrupted index)
    else if x.finish ≤ g.pageSize then .ok x.payload
    else .error (.outOfBounds x.page x.offset x.payload.length g.pageSize)

-- Whether the entry for an index goes when the pages in front of that of another are deleted.
def isDropped (index other : UInt64) : Bool :=
  Entry.pageOf other < Entry.pageOf index

def removeBefore (g : Ledger) (index : UInt64) : Ledger :=
  { g with
    tail := index
    items := (g.items.drop (index - g.tail).toNat).mapIdx fun n x =>
      { x with lost := x.lost || isDropped index (index + UInt64.ofNat n) } }

def removeAll (g : Ledger) : Ledger :=
  start g.pageSize 0

-- What holds of every ledger that a log can have.
structure Lawful (g : Ledger) : Prop where
  pageSize_pos : 0 < g.pageSize
  pageSize_le : g.pageSize ≤ maxDataPageSize
  short : g.items.length < UInt64.size
  ordered : ∀ {j k : Nat} {x y : Item}, g.items[j]? = some x → g.items[k]? = some y → j < k → x.Before y.start
  last : ∀ {x : Item}, g.items[g.items.length - 1]? = some x → g.cursor = ⟨x.page, x.finish⟩
  empty : g.items = [] → g.cursor = ⟨0, 0⟩
  fits : ∀ {k : Nat} {x : Item}, g.items[k]? = some x → x.finish ≤ x.pageSize ∧ x.pageSize ≤ maxDataPageSize

section

variable {g : Ledger} {payload : Bytes} {index : UInt64} {k : Nat} {x : Item}

theorem lt_length (h : g.items[k]? = some x) : k < g.items.length :=
  (List.getElem?_eq_some_iff.mp h).1

-- The window is as long as there are items.
theorem head_sub_tail (g : Ledger) : g.head - g.tail = UInt64.ofNat g.items.length :=
  Circle.add_ofNat_sub g.tail g.items.length

theorem lt_window_iff (h : g.Lawful) (index : UInt64) :
    index - g.tail < g.head - g.tail ↔ (index - g.tail).toNat < g.items.length := by
  rw [UInt64.lt_iff_toNat_lt, head_sub_tail, Circle.toNat_ofNat h.short]

theorem item?_tail_add (h : g.Lawful) (hk : g.items[k]? = some x) :
    g.item? (g.tail + UInt64.ofNat k) = some x := by
  have hlt := Nat.lt_trans (lt_length hk) h.short
  rw [item?, Circle.toNat_add_ofNat_sub g.tail hlt, hk]

-- Every item ends at the cursor or before it.
theorem Lawful.before_cursor (h : g.Lawful) (hk : g.items[k]? = some x) : x.Before g.cursor := by
  have hlt := lt_length hk
  obtain ⟨y, hy⟩ : ∃ y, g.items[g.items.length - 1]? = some y :=
    ⟨_, List.getElem?_eq_getElem (by omega)⟩
  rw [h.last hy]
  by_cases hlast : k = g.items.length - 1
  · rw [hlast, hy] at hk
    cases hk
    exact x.before_end
  · exact (h.ordered hk hy (by omega)).trans y.before_end

theorem items_append (g : Ledger) (payload : Bytes) :
    (g.append payload).items = g.items ++ [⟨(g.placeFor payload.length).page,
      (g.placeFor payload.length).offset, payload, g.pageSize, false⟩] := rfl

-- An item of the longer ledger was there before or is the new one.
theorem getElem?_append (h : (g.append payload).items[k]? = some x) :
    g.items[k]? = some x ∨ k = g.items.length ∧ x = ⟨(g.placeFor payload.length).page,
      (g.placeFor payload.length).offset, payload, g.pageSize, false⟩ := by
  rw [items_append] at h
  rcases Nat.lt_trichotomy k g.items.length with hlt | rfl | hgt
  · rw [List.getElem?_append_left hlt] at h
    exact Or.inl h
  · rw [List.getElem?_concat_length] at h
    exact Or.inr ⟨rfl, (Option.some.inj h).symm⟩
  · rw [List.getElem?_eq_none (by simp; omega)] at h
    cases h

-- The next payload goes behind all items, unless the pages have run out.
theorem Lawful.before_placeFor (h : g.Lawful) (hpages : g.cursor.page.toNat + 1 < UInt64.size)
    (hk : g.items[k]? = some x) (length : Nat) : x.Before (g.placeFor length) := by
  have hcursor := h.before_cursor hk
  unfold placeFor
  split
  · have hnext : g.cursor.page < g.cursor.page + 1 := by
      rw [UInt64.lt_iff_toNat_lt, UInt64.toNat_add, UInt64.toNat_one,
        Nat.mod_eq_of_lt (show g.cursor.page.toNat + 1 < 2 ^ 64 from hpages)]
      exact Nat.lt_succ_self _
    rcases hcursor with hpage | ⟨hpage, -⟩
    · exact Or.inl (UInt64.lt_trans hpage hnext)
    · exact Or.inl (hpage ▸ hnext)
  · exact hcursor

theorem placeFor_offset_add_le (hfits : payload.length ≤ g.pageSize) :
    (g.placeFor payload.length).offset + payload.length ≤ g.pageSize := by
  unfold placeFor
  split
  · simpa using hfits
  · omega

theorem Lawful.append (h : g.Lawful) (hfits : payload.length ≤ g.pageSize)
    (hshort : g.items.length + 1 < UInt64.size) (hpages : g.cursor.page.toNat + 1 < UInt64.size) :
    (g.append payload).Lawful where
  pageSize_pos := h.pageSize_pos
  pageSize_le := h.pageSize_le
  short := by
    rw [items_append, List.length_append]
    exact hshort
  ordered := by
    intro j k x y hj hk hlt
    rcases getElem?_append hk with hk | ⟨rfl, rfl⟩
    · rcases getElem?_append hj with hj | ⟨rfl, -⟩
      · exact h.ordered hj hk hlt
      · exact absurd (lt_length hk) (by omega)
    · rcases getElem?_append hj with hj | ⟨rfl, -⟩
      · exact h.before_placeFor hpages hj payload.length
      · exact absurd hlt (Nat.lt_irrefl _)
  last := by
    intro x hx
    rw [items_append, List.length_append, List.length_singleton, Nat.add_sub_cancel,
      List.getElem?_concat_length] at hx
    cases hx
    rfl
  empty hnil := by
    rw [items_append] at hnil
    exact absurd hnil (by simp)
  fits := by
    intro k x hk
    rcases getElem?_append hk with hk | ⟨-, rfl⟩
    · exact h.fits hk
    · exact ⟨placeFor_offset_add_le hfits, h.pageSize_le⟩

-- The items that stay when those in front of an index go, and which of them are lost.
theorem getElem?_removeBefore (g : Ledger) (index : UInt64) (n : Nat) :
    (g.removeBefore index).items[n]? =
      (g.items[(index - g.tail).toNat + n]?).map fun x =>
        { x with lost := x.lost || isDropped index (index + UInt64.ofNat n) } := by
  rw [removeBefore, List.getElem?_mapIdx, List.getElem?_drop]

theorem length_removeBefore (g : Ledger) (index : UInt64) :
    (g.removeBefore index).items.length = g.items.length - (index - g.tail).toNat := by
  rw [removeBefore, List.length_mapIdx, List.length_drop]

-- The head stays where it is.
theorem head_removeBefore (hin : (index - g.tail).toNat < g.items.length) :
    (g.removeBefore index).head = g.head := by
  have hindex := Circle.ofNat_sub_toNat index g.tail
  rw [head, head, length_removeBefore]
  show index + _ = _
  refine Eq.trans (congrArg (· + _) hindex.symm) ?_
  rw [Circle.add_ofNat_add, Nat.add_sub_of_le (Nat.le_of_lt hin)]

theorem exists_of_getElem?_removeBefore {n : Nat} (h : (g.removeBefore index).items[n]? = some x) :
    ∃ y, g.items[(index - g.tail).toNat + n]? = some y ∧
      x = { y with lost := y.lost || isDropped index (index + UInt64.ofNat n) } := by
  rw [getElem?_removeBefore, Option.map_eq_some_iff] at h
  obtain ⟨y, hy, rfl⟩ := h
  exact ⟨y, hy, rfl⟩

-- Where an item is and what it holds stays as it was.
theorem Lawful.removeBefore (h : g.Lawful) (hin : (index - g.tail).toNat < g.items.length) :
    (g.removeBefore index).Lawful where
  pageSize_pos := h.pageSize_pos
  pageSize_le := h.pageSize_le
  short := by
    have hshort := h.short
    rw [length_removeBefore]
    omega
  ordered := by
    intro j k x y hj hk hlt
    obtain ⟨x, hx, rfl⟩ := exists_of_getElem?_removeBefore hj
    obtain ⟨y, hy, rfl⟩ := exists_of_getElem?_removeBefore hk
    have hbefore : x.Before y.start := h.ordered hx hy (by omega)
    exact hbefore
  last := by
    intro x hx
    obtain ⟨y, hy, rfl⟩ := exists_of_getElem?_removeBefore hx
    have hlast : (index - g.tail).toNat + ((g.removeBefore index).items.length - 1) =
        g.items.length - 1 := by
      rw [length_removeBefore]
      omega
    rw [hlast] at hy
    have hcursor : g.cursor = ⟨y.page, y.finish⟩ := h.last hy
    exact hcursor
  empty hnil := by
    have hlength := length_removeBefore g index
    rw [hnil, List.length_nil] at hlength
    omega
  fits := by
    intro k x hk
    obtain ⟨y, hy, rfl⟩ := exists_of_getElem?_removeBefore hk
    have hfits : y.finish ≤ y.pageSize ∧ y.pageSize ≤ maxDataPageSize := h.fits hy
    exact hfits

theorem lawful_start {pageSize : Nat} (hpos : 0 < pageSize) (hle : pageSize ≤ maxDataPageSize)
    (tail : UInt64) : (start pageSize tail).Lawful where
  pageSize_pos := hpos
  pageSize_le := hle
  short := show 0 < UInt64.size by decide
  ordered hj := by cases hj
  last hx := by cases hx
  empty _ := rfl
  fits hk := by cases hk

theorem Lawful.removeAll (h : g.Lawful) : g.removeAll.Lawful :=
  lawful_start h.pageSize_pos h.pageSize_le 0

theorem Lawful.setPageSize (h : g.Lawful) {pageSize : Nat} (hpos : 0 < pageSize)
    (hle : pageSize ≤ maxDataPageSize) : { g with pageSize : Ledger }.Lawful where
  pageSize_pos := hpos
  pageSize_le := hle
  short := h.short
  ordered := h.ordered
  last := h.last
  empty := h.empty
  fits := h.fits

end

end Ledger

end Spool.Log
