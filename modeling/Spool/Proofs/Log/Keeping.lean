import Spool.Proofs.Log.Ledger
import Spool.Proofs.Log.Opening

namespace Spool

namespace Image

section

variable (img : Image) (e : Log.Entry)

theorem bytes_write_slot (i : UInt64) :
    (img.write Log.Entry.pageSize (Log.Entry.pageOf i) (Log.Entry.positionOf i) e.encode).bytes
      (Log.Entry.pageOf i) (Log.Entry.positionOf i) Log.Entry.width = e.encode := by
  have hself := bytes_write_self img Log.Entry.pageSize (Log.Entry.pageOf i)
    (Log.Entry.positionOf i) e.encode
  rwa [Log.Entry.length_encode] at hself

theorem bytes_write_slot_of_ne {i j : UInt64} (h : j ≠ i) :
    (img.write Log.Entry.pageSize (Log.Entry.pageOf i) (Log.Entry.positionOf i) e.encode).bytes
        (Log.Entry.pageOf j) (Log.Entry.positionOf j) Log.Entry.width =
      img.bytes (Log.Entry.pageOf j) (Log.Entry.positionOf j) Log.Entry.width := by
  by_cases hpage : Log.Entry.pageOf j = Log.Entry.pageOf i
  · rcases Log.Entry.pageOf_ne_or_positionOf_apart h with hne | hapart
    · exact absurd hpage hne
    · rw [hpage]
      apply bytes_write_of_disjoint
      rw [Log.Entry.length_encode]
      exact hapart
  · exact bytes_write_of_ne img Log.Entry.pageSize hpage _ _ _ _

end

end Image

namespace Log

namespace Item

def entry (x : Item) (timestamp : Int64) : Entry where
  dataPage := x.page
  offset := UInt32.ofNat x.offset
  length := UInt32.ofNat x.payload.length
  timestamp
  checksum := Checksum.ofPayload x.payload

-- What the slot of an item holds.
def Recorded (x : Item) (slot : Bytes) : Prop :=
  if x.lost then slot = List.replicate Entry.width 0
  else ∃ timestamp, slot = (x.entry timestamp).encode

-- A slot of zeros is that of a lost item.
theorem Recorded.drop {x : Item} {slot : Bytes} (h : x.Recorded slot) (dropped : Bool) :
    { x with lost := x.lost || dropped : Item }.Recorded
      (if dropped then List.replicate Entry.width 0 else slot) := by
  cases dropped with
  | true => simp [Recorded]
  | false => simpa [Recorded] using h

section Narrowing

variable {x : Item} (h : x.finish ≤ maxDataPageSize) (timestamp : Int64)

private theorem toNat_ofNat_word {n : Nat} (h : n ≤ maxDataPageSize) : (UInt32.ofNat n).toNat = n := by
  rw [UInt32.toNat_ofNat']
  exact Nat.mod_eq_of_lt (Nat.lt_of_le_of_lt h (by decide))

include h

-- Nothing of an item is cut to fit its entry.
theorem toNat_offset_entry : (x.entry timestamp).offset.toNat = x.offset :=
  toNat_ofNat_word (Nat.le_trans (Nat.le_add_right _ _) h)

theorem toNat_length_entry : (x.entry timestamp).length.toNat = x.payload.length :=
  toNat_ofNat_word (Nat.le_trans (Nat.le_add_left _ _) h)

theorem finish_entry : (x.entry timestamp).finish = x.finish := by
  rw [Entry.finish, toNat_offset_entry h, toNat_length_entry h, finish]

end Narrowing

end Item

namespace Books

structure Keeps (b : Books) (g : Ledger) : Prop where
  lawful : g.Lawful
  dataPageSize : b.dataPageSize = g.pageSize
  head : b.head = g.head
  tail : b.tail = g.tail
  cursor : b.cursor = g.cursor
  headWord : b.ends.word endsPage headPosition = g.head
  tailWord : b.ends.word endsPage tailPosition = g.tail
  slots : ∀ {k : Nat} {x : Item}, g.items[k]? = some x →
    x.Recorded (b.slot (g.tail + UInt64.ofNat k))
  covered : ∀ {k : Nat} {x : Item}, g.items[k]? = some x → x.lost = false →
    b.index.Covers Entry.pageSize (Entry.pageOf (g.tail + UInt64.ofNat k))
  payloads : ∀ {k : Nat} {x : Item}, g.items[k]? = some x → x.lost = false →
    b.data.bytes x.page x.offset x.payload.length = x.payload
  noPages : g.items = [] → ∀ page, b.data page = none

section

variable {b b' : Books} {g : Ledger} {index : UInt64} {payload : Bytes} {k : Nat} {x : Item}

theorem Keeps.contains_iff (h : b.Keeps g) (index : UInt64) :
    b.contains index = true ↔ (index - g.tail).toNat < g.items.length := by
  rw [Books.contains, decide_eq_true_iff, h.head, h.tail]
  exact Ledger.lt_window_iff h.lawful index

theorem Keeps.toNat_head_sub_tail (h : b.Keeps g) : (b.head - b.tail).toNat = g.items.length := by
  rw [h.head, h.tail, Ledger.head_sub_tail, Circle.toNat_ofNat h.lawful.short]

theorem Keeps.finish_le (h : b.Keeps g) (hk : g.items[k]? = some x) : x.finish ≤ maxDataPageSize :=
  Nat.le_trans (h.lawful.fits hk).1 (h.lawful.fits hk).2

theorem Keeps.slot (h : b.Keeps g) (hk : g.item? index = some x) : x.Recorded (b.slot index) := by
  have hslot := h.slots hk
  rwa [Circle.ofNat_sub_toNat] at hslot

theorem Keeps.entry_of_lost (h : b.Keeps g) (hk : g.item? index = some x) (hlost : x.lost = true) :
    b.entry index = ⟨0, 0, 0, 0, 0⟩ := by
  have hslot := h.slot hk
  rw [Item.Recorded, if_pos hlost] at hslot
  rw [Books.entry, hslot, Entry.decode_zeros]

theorem Keeps.entry (h : b.Keeps g) (hk : g.item? index = some x) (hlost : x.lost = false) :
    ∃ timestamp, b.entry index = x.entry timestamp := by
  have hslot := h.slot hk
  rw [Item.Recorded, if_neg (by simp [hlost])] at hslot
  obtain ⟨timestamp, hslot⟩ := hslot
  exact ⟨timestamp, by rw [Books.entry, hslot, Entry.decode_encode]⟩

private theorem ofPayload_nil_ne_zero : Checksum.ofPayload [] ≠ 0 := by
  decide +kernel

-- A slot of zeros gives no payload.
theorem fetch_of_zeros (h : b.entry index = ⟨0, 0, 0, 0, 0⟩) :
    b.fetch index = .error (.corrupted index) := by
  have hzero : (⟨0, 0, 0, 0, 0⟩ : Entry).finish ≤ b.dataPageSize := Nat.zero_le _
  have hnil : b.data.bytes 0 0 0 = [] := rfl
  rw [Books.fetch, h, if_pos hzero]
  show (if Checksum.ofPayload (b.data.bytes 0 0 0) ≠ 0 then _ else _) = _
  rw [hnil, if_pos ofPayload_nil_ne_zero]

-- A read at an index of the window gives what the ledger says.
theorem Keeps.fetch_eq (h : b.Keeps g) (hk : g.item? index = some x) :
    b.fetch index = g.fetch index := by
  have hfetch : g.fetch index = if x.lost then .error (.corrupted index)
      else if x.finish ≤ g.pageSize then .ok x.payload
      else .error (.outOfBounds x.page x.offset x.payload.length g.pageSize) := by
    rw [Ledger.fetch, hk]
  rw [hfetch]
  cases hlost : x.lost with
  | true =>
      rw [fetch_of_zeros (h.entry_of_lost hk hlost)]
      rfl
  | false =>
      rw [Books.fetch, h.dataPageSize]
      obtain ⟨timestamp, hentry⟩ := h.entry hk hlost
      have hle := h.finish_le hk
      have hbytes : b.data.bytes (x.entry timestamp).dataPage x.offset x.payload.length = x.payload :=
        h.payloads hk hlost
      simp only [hentry, Item.finish_entry hle, Item.toNat_offset_entry hle,
        Item.toNat_length_entry hle, hbytes]
      have hchecksum : Checksum.ofPayload x.payload = (x.entry timestamp).checksum := rfl
      rw [if_neg (not_not_intro hchecksum)]
      rfl

-- What does not show in any byte does not show in the ledger.
private theorem Keeps.congr (h : b.Keeps g) (hsize : b'.dataPageSize = b.dataPageSize)
    (hhead : b'.head = b.head) (htail : b'.tail = b.tail) (hcursor : b'.cursor = b.cursor)
    (hends : b'.ends = b.ends) (hslot : ∀ i, b'.slot i = b.slot i)
    (hcovers : ∀ page, b.index.Covers Entry.pageSize page → b'.index.Covers Entry.pageSize page)
    (hbytes : ∀ page position length, b'.data.bytes page position length =
      b.data.bytes page position length)
    (hpages : g.items = [] → ∀ page, b'.data page = none) : b'.Keeps g where
  lawful := h.lawful
  dataPageSize := hsize.trans h.dataPageSize
  head := hhead.trans h.head
  tail := htail.trans h.tail
  cursor := hcursor.trans h.cursor
  headWord := by rw [hends, h.headWord]
  tailWord := by rw [hends, h.tailWord]
  slots hk := by
    rw [hslot]
    exact h.slots hk
  covered hk hlost := hcovers _ (h.covered hk hlost)
  payloads hk hlost := by
    rw [hbytes]
    exact h.payloads hk hlost
  noPages := hpages

theorem Keeps.lookUp (h : b.Keeps g) (index : UInt64) : (b.lookUp index).Keeps g :=
  h.congr rfl rfl rfl rfl rfl (fun _ => Image.bytes_touch _ _ _ _ _ _)
    (fun _ hcovers => hcovers.touch _) (fun _ _ _ => rfl) h.noPages

theorem Keeps.visit (h : b.Keeps g) (hk : g.item? index = some x) : (b.visit index).Keeps g := by
  refine (h.lookUp index).congr rfl rfl rfl rfl rfl (fun _ => rfl) (fun _ hcovers => hcovers)
    (fun _ _ _ => Image.bytes_touch _ _ _ _ _ _) ?_
  intro hnil
  rw [Ledger.item?, hnil] at hk
  cases hk

theorem Keeps.setNow (h : b.Keeps g) (now : Nat) : { b with now : Books }.Keeps g :=
  h.congr rfl rfl rfl rfl rfl (fun _ => rfl) (fun _ hcovers => hcovers) (fun _ _ _ => rfl) h.noPages

theorem Keeps.placeFor_eq (h : b.Keeps g) (length : Nat) : b.placeFor length = g.placeFor length := by
  rw [Books.placeFor, Ledger.placeFor, h.dataPageSize, h.cursor]

-- The new head is one word on.
theorem head_append (g : Ledger) (payload : Bytes) : (g.append payload).head = g.head + 1 := by
  rw [Ledger.head, Ledger.items_append, List.length_append, List.length_singleton,
    ← Circle.add_ofNat_add]
  rfl

private theorem slot_append_self (b : Books) (payload : Bytes) :
    (b.append payload).slot b.head = (entryFor (b.placeFor payload.length) payload b.now).encode :=
  Image.bytes_write_slot _ _ _

private theorem slot_append_of_ne (b : Books) (payload : Bytes) (hne : index ≠ b.head) :
    (b.append payload).slot index = b.slot index :=
  Image.bytes_write_slot_of_ne _ _ hne

-- The index of a new item is that of no other.
private theorem Keeps.index_ne_head {k : Nat} (h : b.Keeps g) (hk : g.items[k]? = some x) :
    g.tail + UInt64.ofNat k ≠ b.head := by
  rw [h.head]
  intro heq
  have hlt := Ledger.lt_length hk
  have hlength := h.lawful.short
  exact Nat.ne_of_lt hlt (Circle.add_ofNat_inj (Nat.lt_trans hlt hlength) hlength heq)

-- A new payload is written over no other.
private theorem Keeps.payload_append {k : Nat} (h : b.Keeps g)
    (hpages : g.cursor.page.toNat + 1 < UInt64.size) (hk : g.items[k]? = some x)
    (hlost : x.lost = false) :
    (b.append payload).data.bytes x.page x.offset x.payload.length = x.payload := by
  show (b.data.write b.dataPageSize (b.placeFor payload.length).page _ payload).bytes _ _ _ = _
  rw [h.placeFor_eq]
  refine Eq.trans ?_ (h.payloads hk hlost)
  rcases h.lawful.before_placeFor hpages hk payload.length with hpage | ⟨hpage, hle⟩
  · exact Image.bytes_write_of_ne _ _ (UInt64.ne_of_lt hpage) _ _ _ _
  · rw [hpage]
    exact Image.bytes_write_of_disjoint _ _ _ (Or.inl hle)

theorem Keeps.append (h : b.Keeps g) (hfits : payload.length ≤ g.pageSize)
    (hshort : g.items.length + 1 < UInt64.size) (hpages : g.cursor.page.toNat + 1 < UInt64.size) :
    (b.append payload).Keeps (g.append payload) where
  lawful := h.lawful.append hfits hshort hpages
  dataPageSize := h.dataPageSize
  head := by
    rw [head_append, ← h.head]
    rfl
  tail := h.tail
  cursor := by
    show Cursor.mk _ _ = Cursor.mk _ _
    rw [h.placeFor_eq]
  headWord := by
    rw [head_append, ← h.head]
    exact Image.word_setWord b.ends endsPageSize endsPage headPosition _
  tailWord := by
    rw [← show _ = (g.append payload).tail from h.tailWord]
    exact Image.word_setWord_of_disjoint b.ends endsPageSize endsPage _ (by decide)
  slots := by
    intro k x hk
    rcases Ledger.getElem?_append hk with hk | ⟨rfl, rfl⟩
    · show x.Recorded ((b.append payload).slot (g.tail + UInt64.ofNat k))
      rw [slot_append_of_ne b payload (h.index_ne_head hk)]
      exact h.slots hk
    · have hhead : g.tail + UInt64.ofNat g.items.length = b.head := h.head.symm
      show Item.Recorded _ ((b.append payload).slot (g.tail + UInt64.ofNat g.items.length))
      rw [hhead, slot_append_self, h.placeFor_eq]
      exact ⟨Log.timestamp b.now, rfl⟩
  covered := by
    intro k x hk hlost
    apply Image.covers_write_iff.mpr
    rcases Ledger.getElem?_append hk with hk | ⟨rfl, -⟩
    · exact (h.covered hk hlost).touch _
    · have hhead : (g.append payload).tail + UInt64.ofNat g.items.length = b.head := h.head.symm
      rw [hhead]
      exact Image.covers_touch_self _ _ _
  payloads := by
    intro k x hk hlost
    rcases Ledger.getElem?_append hk with hk | ⟨-, rfl⟩
    · exact h.payload_append hpages hk hlost
    · rw [← h.placeFor_eq]
      exact Image.bytes_write_self _ _ _ _ _
  noPages hnil := by
    rw [Ledger.items_append] at hnil
    exact absurd hnil (by simp)

-- The data page that a removal keeps from is not behind that of any item that stays.
private theorem Keeps.dataPage_le {n : Nat} {y : Item} (h : b.Keeps g) (hk : g.item? index = some x)
    (hn : g.items[(index - g.tail).toNat + n]? = some y) : (b.entry index).dataPage ≤ y.page := by
  cases hlost : x.lost with
  | true =>
      rw [h.entry_of_lost hk hlost]
      exact UInt64.zero_le
  | false =>
      obtain ⟨timestamp, hentry⟩ := h.entry hk hlost
      rw [hentry]
      show x.page ≤ y.page
      cases n with
      | zero =>
          have hsame : some x = some y := hk.symm.trans hn
          cases hsame
          exact UInt64.le_refl _
      | succ n =>
          rcases h.lawful.ordered hk hn (by omega) with hpage | ⟨hpage, -⟩
          · exact UInt64.le_of_lt hpage
          · exact UInt64.le_of_eq hpage

-- A removal blanks the slots whose index pages it deletes, and no other.
theorem slot_dropBefore (b : Books) (index : UInt64) (page : UInt64) (other : UInt64) :
    (b.dropBefore index page).slot other =
      if Ledger.isDropped index other then List.replicate Entry.width 0 else b.slot other := by
  refine (Image.bytes_without _ _ _ _ _).trans ?_
  rw [Books.lookUp, Image.bytes_touch]
  rfl

-- Where an item that stays is found after a removal is where it was.
private theorem index_removeBefore (g : Ledger) (index : UInt64) (n : Nat) :
    g.tail + UInt64.ofNat ((index - g.tail).toNat + n) = index + UInt64.ofNat n := by
  rw [← Circle.add_ofNat_add, Circle.ofNat_sub_toNat]

private theorem Keeps.dropBefore (h : b.Keeps g) (hk : g.item? index = some x) {page : UInt64}
    (hpage : ∀ {n : Nat} {y : Item}, g.items[(index - g.tail).toNat + n]? = some y → page ≤ y.page) :
    (b.dropBefore index page).Keeps (g.removeBefore index) where
  lawful := h.lawful.removeBefore (Ledger.lt_length hk)
  dataPageSize := h.dataPageSize
  head := h.head.trans (Ledger.head_removeBefore (Ledger.lt_length hk)).symm
  tail := rfl
  cursor := h.cursor
  headWord := by
    rw [Ledger.head_removeBefore (Ledger.lt_length hk), ← h.headWord]
    exact Image.word_setWord_of_disjoint b.ends endsPageSize endsPage index (by decide)
  tailWord := Image.word_setWord b.ends endsPageSize endsPage tailPosition index
  slots := by
    intro n z hz
    obtain ⟨y, hy, rfl⟩ := Ledger.exists_of_getElem?_removeBefore hz
    have hrecorded := h.slots hy
    rw [index_removeBefore] at hrecorded
    show Item.Recorded _ ((b.dropBefore index page).slot (index + UInt64.ofNat n))
    rw [slot_dropBefore]
    exact hrecorded.drop _
  covered := by
    intro n z hz hlost
    obtain ⟨y, hy, rfl⟩ := Ledger.exists_of_getElem?_removeBefore hz
    obtain ⟨hkept, hstays⟩ := Bool.or_eq_false_iff.mp hlost
    have hcovers := h.covered hy hkept
    rw [index_removeBefore] at hcovers
    exact (hcovers.touch _).without hstays
  payloads := by
    intro n z hz hlost
    obtain ⟨y, hy, rfl⟩ := Ledger.exists_of_getElem?_removeBefore hz
    have hkept : y.lost = false := (Bool.or_eq_false_iff.mp hlost).1
    refine (Image.bytes_without _ _ _ _ _).trans ?_
    rw [if_neg (by simpa using hpage hy)]
    have hbytes : b.data.bytes y.page y.offset y.payload.length = y.payload := h.payloads hy hkept
    exact hbytes
  noPages hnil := by
    have hlength := Ledger.length_removeBefore g index
    have hlt := Ledger.lt_length hk
    rw [hnil, List.length_nil] at hlength
    omega

theorem Keeps.removeBefore (h : b.Keeps g) (hk : g.item? index = some x) :
    (b.removeBefore index).Keeps (g.removeBefore index) :=
  h.dropBefore hk fun hn => h.dataPage_le hk hn

theorem Keeps.removeAll (h : b.Keeps g) : b.removeAll.Keeps g.removeAll where
  lawful := h.lawful.removeAll
  dataPageSize := h.dataPageSize
  head := rfl
  tail := rfl
  cursor := rfl
  headWord := by
    have hhead := Image.word_setWord b.ends endsPageSize endsPage headPosition 0
    have hdisjoint : b.removeAll.ends.word endsPage headPosition = _ :=
      Image.word_setWord_of_disjoint (b.ends.setWord endsPageSize endsPage headPosition 0) endsPageSize
        endsPage 0 (by decide)
    exact hdisjoint.trans hhead
  tailWord := Image.word_setWord _ endsPageSize endsPage tailPosition 0
  slots hk := by cases hk
  covered hk := by cases hk
  payloads hk := by cases hk
  noPages _ _ := rfl

section Reopen

variable {pageSize now : Nat}

-- The books that a log finds where these were kept.
def refound (b : Books) (pageSize now : Nat) : Books :=
  (fresh pageSize now b.index b.data b.ends).takeUp

theorem dataPageSize_refound (b : Books) (pageSize now : Nat) :
    (b.refound pageSize now).dataPageSize = pageSize := by
  unfold refound takeUp
  rfl

theorem data_refound (b : Books) (pageSize now : Nat) : (b.refound pageSize now).data = b.data := by
  unfold refound takeUp
  rfl

theorem index_refound (b : Books) (pageSize now : Nat) : (b.refound pageSize now).index = b.index := by
  unfold refound takeUp
  rfl

theorem ends_refound (b : Books) (pageSize now : Nat) :
    (b.refound pageSize now).ends = b.ends.touch endsPageSize endsPage := by
  unfold refound takeUp
  rfl

theorem head_refound (b : Books) (pageSize now : Nat) :
    (b.refound pageSize now).head = b.ends.word endsPage headPosition := by
  unfold refound takeUp
  rfl

theorem tail_refound (b : Books) (pageSize now : Nat) :
    (b.refound pageSize now).tail = b.ends.word endsPage tailPosition := by
  unfold refound takeUp
  rfl

private theorem Keeps.refound (h : b.Keeps g) (hpos : 0 < pageSize) (hle : pageSize ≤ maxDataPageSize)
    {cursor : Cursor} (hcursor : g.cursor = cursor) :
    { b.refound pageSize now with cursor }.Keeps { g with pageSize } where
  lawful := h.lawful.setPageSize hpos hle
  dataPageSize := rfl
  head := h.headWord
  tail := h.tailWord
  cursor := hcursor.symm
  headWord := (Image.word_touch _ _ _ _ _).trans h.headWord
  tailWord := (Image.word_touch _ _ _ _ _).trans h.tailWord
  slots hk := h.slots hk
  covered hk hlost := h.covered hk hlost
  payloads hk hlost := h.payloads hk hlost
  noPages hnil := h.noPages hnil

theorem Keeps.refound_head_eq_tail_iff (h : b.Keeps g) (pageSize now : Nat) :
    (b.refound pageSize now).head = (b.refound pageSize now).tail ↔ g.items = [] := by
  show b.ends.word endsPage headPosition = b.ends.word endsPage tailPosition ↔ _
  rw [h.headWord, h.tailWord, ← List.length_eq_zero_iff]
  constructor
  · intro hsame
    have hwindow := Ledger.head_sub_tail g
    rw [hsame, UInt64.sub_self] at hwindow
    rw [← Circle.toNat_ofNat h.lawful.short, ← hwindow]
    rfl
  · intro hlength
    rw [Ledger.head, hlength]
    exact UInt64.add_zero _

-- An empty log is as it was when it is opened again.
theorem Keeps.refound_empty (h : b.Keeps g) (hnil : g.items = []) (hpos : 0 < pageSize)
    (hle : pageSize ≤ maxDataPageSize) (now : Nat) :
    { b.refound pageSize now with cursor := ⟨0, 0⟩ }.Keeps { g with pageSize } :=
  h.refound hpos hle (h.lawful.empty hnil)

-- So is a log whose last item is not lost: the cursor comes back from its entry.
theorem Keeps.refound_resume (h : b.Keeps g) (hlast : g.items[g.items.length - 1]? = some x)
    (hlost : x.lost = false) (hpos : 0 < pageSize) (hle : pageSize ≤ maxDataPageSize) (now : Nat) :
    (b.refound pageSize now).resume.Keeps { g with pageSize } := by
  have hlength : g.items.length - 1 + 1 = g.items.length := by
    have hlt := Ledger.lt_length hlast
    omega
  have hindex : g.head - 1 = g.tail + UInt64.ofNat (g.items.length - 1) := by
    rw [Ledger.head, ← hlength, ← Circle.add_ofNat_add, Nat.add_sub_cancel]
    exact UInt64.add_sub_cancel _ _
  have hitem : g.item? (g.head - 1) = some x := by
    rw [hindex]
    exact Ledger.item?_tail_add h.lawful hlast
  obtain ⟨timestamp, hentry⟩ := h.entry hitem hlost
  have hcursor : g.cursor = ⟨(x.entry timestamp).dataPage, (x.entry timestamp).finish⟩ := by
    rw [Item.finish_entry (h.finish_le hlast)]
    exact h.lawful.last hlast
  have hfound : (b.refound pageSize now).entry (g.head - 1) = x.entry timestamp := hentry
  have hhead : (b.refound pageSize now).head = g.head := h.headWord
  unfold Books.resume
  rw [hhead, hfound]
  exact (h.refound hpos hle hcursor).lookUp (g.head - 1)

end Reopen

end

end Books

end Log

end Spool
