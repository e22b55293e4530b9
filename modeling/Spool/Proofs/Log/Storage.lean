import Spool.Proofs.Log.Run

namespace Spool.Log

structure Kept where
  payload : Bytes
  pageSize : Nat

-- All that a user of a log needs to keep in mind: the payloads of the window, each with the page size that was
-- in force when it came, and the page size in force now.
structure Archive where
  pageSize : Nat
  tail : UInt64
  kept : List Kept

namespace Archive

def empty (pageSize : Nat) : Archive :=
  ⟨pageSize, 0, []⟩

def head (a : Archive) : UInt64 :=
  a.tail + UInt64.ofNat a.kept.length

def contains (a : Archive) (index : UInt64) : Prop :=
  (index - a.tail).toNat < a.kept.length

def kept? (a : Archive) (index : UInt64) : Option Kept :=
  a.kept[(index - a.tail).toNat]?

def react (a : Archive) : Event → Archive
  | .op (.append payload) =>
    if payload.length ≤ a.pageSize then { a with kept := a.kept ++ [⟨payload, a.pageSize⟩] } else a
  | .op (.removeBefore index) =>
    if (index - a.tail).toNat < a.kept.length then
      { a with tail := index, kept := a.kept.drop (index - a.tail).toNat }
    else a
  | .op .removeAll => empty a.pageSize
  | .reopen dataPageSize _ => { a with pageSize := dataPageSize }
  | _ => a

end Archive

-- The entry for an index as it is in the file of its page, if the file has it.
def entryAt (s : Host × Log) (index : UInt64) : Option Entry :=
  (s.2.entryBytes? s.1.disk index).map Entry.decode

-- The bytes that an entry points to, as they are in the file of the data page.
def payloadAt (base : Location) (s : Host × Log) (e : Entry) : Bytes :=
  (s.1.disk.image (dataDir :: base)).bytes e.dataPage e.offset.toNat e.length.toNat

-- The law of a log that keeps an archive after some number of appends: how its window is stored, and
-- what comes of each call.
structure Obeys (dir : Path) (base : Location) (s : Host × Log) (a : Archive) (appends : Nat) :
    Prop where
  tail : s.2.tail = a.tail
  head : s.2.head = a.head
  window : ∀ index, index - s.2.tail < s.2.head - s.2.tail ↔ a.contains index
  -- No offset or length is cut, and every payload ends within the page size of its time.
  stored : ∀ {index : UInt64} {x : Kept}, a.kept? index = some x → ∃ e,
    entryAt s index = some e ∧ payloadAt base s e = x.payload ∧ e.finish ≤ x.pageSize
  disjoint : ∀ {i j : UInt64} {e e' : Entry}, a.contains i → a.contains j → i ≠ j →
    entryAt s i = some e → entryAt s j = some e' →
    e.dataPage ≠ e'.dataPage ∨ e.finish ≤ e'.offset.toNat ∨ e'.finish ≤ e.offset.toNat
  append : ∀ payload, payload.length ≤ a.pageSize → appends + 1 < UInt64.size →
    ((Log.append payload).run s).1 = .ok a.head ∧ ((Log.append payload).run s).2.2.head = a.head + 1
  append_tooLarge : ∀ payload, a.pageSize < payload.length →
    (Log.append payload).run s = (.error (.itemTooLarge payload.length a.pageSize), s)
  fetch : ∀ {index : UInt64} {x : Kept} {e : Entry}, a.kept? index = some x →
    entryAt s index = some e → ((Log.fetch index).run s).1 =
      if e.finish ≤ a.pageSize then .ok x.payload
      else .error (.outOfBounds e.dataPage e.offset.toNat e.length.toNat a.pageSize)
  fetch_outOfRange : ∀ index, ¬a.contains index →
    (Log.fetch index).run s = (.error (.outOfRange index a.tail a.head), s)
  removeBefore : ∀ index, a.contains index →
    ((Log.removeBefore index).run s).1 = .ok () ∧ ((Log.removeBefore index).run s).2.2.tail = index
  removeBefore_outOfRange : ∀ index, ¬a.contains index →
    (Log.removeBefore index).run s = (.error (.outOfRange index a.tail a.head), s)
  removeAll : (Log.removeAll.run s).1 = .ok ()
  reopen : ∀ dataPageSize policy, 0 < dataPageSize → dataPageSize ≤ maxDataPageSize →
    ((Log.reopen dir dataPageSize policy).run s).1 = .ok ()

-- A ledger without the places of its items.
def Ledger.archive (g : Ledger) : Archive where
  pageSize := g.pageSize
  tail := g.tail
  kept := g.items.map fun x => ⟨x.payload, x.pageSize⟩

@[simp] theorem Ledger.tail_archive (g : Ledger) : g.archive.tail = g.tail := rfl

@[simp] theorem Ledger.length_kept_archive (g : Ledger) : g.archive.kept.length = g.items.length :=
  List.length_map _

section

variable {dir : Path} {base : Location} {s : Host × Log} {b : Books} {g : Ledger} {n : Nat}
  {index : UInt64} {x : Item}

theorem Ledger.archive_append (g : Ledger) (payload : Bytes) :
    (g.append payload).archive =
      { g.archive with kept := g.archive.kept ++ [⟨payload, g.pageSize⟩] } := by
  simp [Ledger.archive, Ledger.append]

theorem Ledger.archive_removeBefore (g : Ledger) (index : UInt64) :
    (g.removeBefore index).archive =
      { g.archive with tail := index, kept := g.archive.kept.drop (index - g.tail).toNat } := by
  have hkept : (g.removeBefore index).archive.kept = g.archive.kept.drop (index - g.tail).toNat := by
    apply List.ext_getElem?
    intro k
    simp only [Ledger.archive, List.getElem?_map, List.getElem?_drop, Ledger.getElem?_removeBefore,
      Option.map_map]
    rfl
  rw [← hkept]
  rfl

theorem Ledger.archive_react (g : Ledger) (e : Event) : (g.react e).archive = g.archive.react e := by
  cases e with
  | reopen dataPageSize policy => rfl
  | op o =>
      cases o with
      | append payload =>
          show (if payload.length ≤ g.pageSize then g.append payload else g).archive =
            if payload.length ≤ g.pageSize then _ else _
          split
          · exact Ledger.archive_append g payload
          · rfl
      | removeBefore index =>
          have hkept := length_kept_archive g
          show (if (index - g.tail).toNat < g.items.length then g.removeBefore index else g).archive =
            if (index - g.tail).toNat < g.archive.kept.length then _ else _
          rw [hkept]
          split
          · exact Ledger.archive_removeBefore g index
          · rfl
      | _ => rfl

theorem Ledger.archive_foldl (g : Ledger) (es : List Event) :
    (es.foldl Ledger.react g).archive = es.foldl Archive.react g.archive := by
  induction es generalizing g with
  | nil => rfl
  | cons e es ih => rw [List.foldl_cons, List.foldl_cons, ih, Ledger.archive_react]

@[simp] theorem Ledger.head_archive (g : Ledger) : g.archive.head = g.head := by
  rw [Archive.head, Ledger.head, tail_archive, length_kept_archive]

theorem Ledger.contains_archive_iff (g : Ledger) (index : UInt64) :
    g.archive.contains index ↔ (index - g.tail).toNat < g.items.length := by
  rw [Archive.contains, tail_archive, length_kept_archive]

theorem Ledger.exists_item_of_contains (h : g.archive.contains index) :
    ∃ x, g.item? index = some x :=
  ⟨_, List.getElem?_eq_getElem ((Ledger.contains_archive_iff g index).mp h)⟩

-- What the archive keeps at an index is an item of the ledger.
theorem Ledger.exists_item_of_kept {y : Kept} (h : g.archive.kept? index = some y) :
    ∃ x, g.item? index = some x ∧ y = ⟨x.payload, x.pageSize⟩ := by
  rw [Archive.kept?, Ledger.archive, List.getElem?_map, Option.map_eq_some_iff] at h
  obtain ⟨x, hx, rfl⟩ := h
  exact ⟨x, hx, rfl⟩

-- An entry that is in its file is the one in its slot.
theorem Shows.entryBytes?_eq (h : Shows dir base s b)
    (hcovers : b.index.Covers Entry.pageSize (Entry.pageOf index)) :
    s.2.entryBytes? s.1.disk index = some (b.slot index) := by
  obtain ⟨sheet, hsheet, hsize⟩ := hcovers
  have himage : s.1.disk.image (indexDir :: base) (Entry.pageOf index) = some sheet := by
    rw [h.index.image, hsheet]
  obtain ⟨id, hnode⟩ := Disk.isSome_image_iff.mp (by rw [himage]; rfl)
  have hcontent : (s.1.disk.content id).sheet = sheet := by
    rw [Disk.image_eq_some hnode] at himage
    exact Option.some.inj himage
  have hlookup : s.1.disk.lookup (s.2.index.pagePath (Entry.pageOf index)) = .ok (.file id) :=
    Disk.lookup_of_locate (h.index.sound.houses.locate_page _) hnode
  have hbounds : Entry.positionOf index + Entry.width ≤ (s.1.disk.content id).size := by
    have hlong : Entry.pageSize ≤ (s.1.disk.content id).sheet.size := by
      rw [hcontent]
      exact hsize
    exact Nat.le_trans (Entry.positionOf_add_width_le index) hlong
  unfold Log.entryBytes?
  rw [hlookup]
  show (if Entry.positionOf index + Entry.width ≤ (s.1.disk.content id).size then _ else none) = _
  rw [if_pos hbounds, Books.slot, Image.bytes, Image.sheet, hsheet, ← hcontent]
  rfl

theorem entryAt_eq (hshows : Shows dir base s b) (hkeeps : b.Keeps g) (hitem : g.item? index = some x)
    (hlost : x.lost = false) : ∃ timestamp, entryAt s index = some (x.entry timestamp) := by
  have hcovers := hkeeps.covered hitem hlost
  rw [Circle.ofNat_sub_toNat] at hcovers
  obtain ⟨timestamp, hentry⟩ := hkeeps.entry hitem hlost
  refine ⟨timestamp, ?_⟩
  rw [entryAt, hshows.entryBytes?_eq hcovers, ← hentry]
  rfl

theorem payloadAt_eq (hshows : Shows dir base s b) (hkeeps : b.Keeps g) (hitem : g.item? index = some x)
    (hlost : x.lost = false) (timestamp : Int64) : payloadAt base s (x.entry timestamp) = x.payload := by
  have hle := hkeeps.finish_le hitem
  rw [payloadAt, hshows.data.image, Item.toNat_offset_entry hle, Item.toNat_length_entry hle]
  exact hkeeps.payloads hitem hlost

-- The payloads of different items share no byte.
private theorem entries_disjoint {i j : UInt64} {x y : Item} (hlawful : g.Lawful)
    (hx : g.item? i = some x) (hy : g.item? j = some y) (hne : i ≠ j) :
    x.page ≠ y.page ∨ x.finish ≤ y.offset ∨ y.finish ≤ x.offset := by
  have hplaces : (i - g.tail).toNat ≠ (j - g.tail).toNat := by
    intro hsame
    apply hne
    rw [← Circle.ofNat_sub_toNat i g.tail, hsame, Circle.ofNat_sub_toNat]
  rcases Nat.lt_or_gt_of_ne hplaces with hlt | hgt
  · rcases hlawful.ordered hx hy hlt with hpage | ⟨-, hle⟩
    · exact Or.inl (UInt64.ne_of_lt hpage)
    · exact Or.inr (Or.inl hle)
  · rcases hlawful.ordered hy hx hgt with hpage | ⟨-, hle⟩
    · exact Or.inl (UInt64.ne_of_lt hpage).symm
    · exact Or.inr (Or.inr hle)

private theorem Holds.exists_entryAt (h : Holds dir base s g) (hstraight : g.Straight n)
    (hx : g.item? index = some x) : ∃ e, entryAt s index = some e ∧ payloadAt base s e = x.payload ∧
      e.dataPage = x.page ∧ e.offset.toNat = x.offset ∧ e.length.toNat = x.payload.length ∧
      e.finish = x.finish := by
  obtain ⟨b, hshows, hkeeps⟩ := h
  have hlost := hstraight.intact hx
  have hle := hkeeps.finish_le hx
  obtain ⟨timestamp, hentry⟩ := entryAt_eq hshows hkeeps hx hlost
  exact ⟨_, hentry, payloadAt_eq hshows hkeeps hx hlost timestamp, rfl, Item.toNat_offset_entry hle _,
    Item.toNat_length_entry hle _, Item.finish_entry hle _⟩

theorem Holds.obeys (h : Holds dir base s g) (hwithin : g.Within n) (hstraight : g.Straight n) :
    Obeys dir base s g.archive n where
  tail := h.tail_eq
  head := h.head_eq.trans g.head_archive.symm
  window index := by
    rw [h.tail_eq, h.head_eq, Ledger.lt_window_iff h.lawful, Ledger.contains_archive_iff]
  stored hy := by
    obtain ⟨x, hx, rfl⟩ := Ledger.exists_item_of_kept hy
    obtain ⟨e, hentry, hpayload, -, -, -, hfinish⟩ := h.exists_entryAt hstraight hx
    exact ⟨e, hentry, hpayload, hfinish ▸ (h.lawful.fits hx).1⟩
  disjoint := by
    intro i j e e' hi hj hne he he'
    obtain ⟨x, hx⟩ := Ledger.exists_item_of_contains hi
    obtain ⟨y, hy⟩ := Ledger.exists_item_of_contains hj
    obtain ⟨_, hentry, -, hpage, hoffset, -, hfinish⟩ := h.exists_entryAt hstraight hx
    obtain ⟨_, hentry', -, hpage', hoffset', -, hfinish'⟩ := h.exists_entryAt hstraight hy
    cases hentry.symm.trans he
    cases hentry'.symm.trans he'
    rw [hpage, hpage', hoffset, hoffset', hfinish, hfinish']
    exact entries_disjoint h.lawful hx hy hne
  append payload hfits hroom := by
    have hitems := hwithin.items
    have hpages := hwithin.pages
    have happend := h.append hfits (by omega) (by omega)
    rw [Ledger.head_archive]
    exact ⟨happend.1, happend.2.holds.head_eq.trans (Books.head_append g payload)⟩
  append_tooLarge payload hlong := by
    obtain ⟨t, hrun, rfl⟩ := (h.append_tooLarge hlong).run_eq
    exact hrun
  fetch := by
    intro index y e hy he
    obtain ⟨x, hx, rfl⟩ := Ledger.exists_item_of_kept hy
    obtain ⟨_, hentry, -, hpage, hoffset, hlength, hfinish⟩ := h.exists_entryAt hstraight hx
    cases hentry.symm.trans he
    have hfetch : g.fetch index = if x.finish ≤ g.pageSize then .ok x.payload
        else .error (.outOfBounds x.page x.offset x.payload.length g.pageSize) := by
      rw [Ledger.fetch, hx]
      exact if_neg (by simp [hstraight.intact hx])
    rw [(h.fetch index).1, hfetch, hpage, hoffset, hlength, hfinish]
    rfl
  fetch_outOfRange index hout := by
    rw [Ledger.contains_archive_iff] at hout
    obtain ⟨t, hrun, rfl⟩ := (h.fetch_outOfRange hout).run_eq
    rw [Ledger.head_archive]
    exact hrun
  removeBefore index hin := by
    rw [Ledger.contains_archive_iff] at hin
    have hremove := h.removeBefore hin
    exact ⟨hremove.1, hremove.2.holds.tail_eq⟩
  removeBefore_outOfRange index hout := by
    rw [Ledger.contains_archive_iff] at hout
    obtain ⟨t, hrun, rfl⟩ := (h.removeBefore_outOfRange hout).run_eq
    rw [Ledger.head_archive]
    exact hrun
  removeAll := h.removeAll.1
  reopen pageSize policy hpos hle := (h.ends_reopen hstraight.intact hpos hle policy).1

-- From an empty directory on, whatever happens to a log, it obeys the law of the archive to which the
-- same happened.
theorem storage_law (host : Host) {pageSize : Nat} (es : List Event)
    (hvacant : host.disk.Vacant dir base) (hpos : 0 < pageSize) (hle : pageSize ≤ maxDataPageSize)
    (policy : CachePolicy) (hvalid : ∀ e ∈ es, e.IsValid)
    (hcount : Step.total Event.appends es < UInt64.size) :
    ∃ host' l, (Log.open dir pageSize policy).run host = (.ok l, host') ∧
      Obeys dir base (Step.after (es.map (Event.perform dir)) (host', l))
        (es.foldl Archive.react (.empty pageSize)) (Step.total Event.appends es) := by
  obtain ⟨l, hopen⟩ := (startsAt_zero hvacant).open hpos hle policy
  obtain ⟨host', hrun, hholds, -⟩ := hopen.run_eq
  have hafter := hholds.after_events es (Ledger.Within.start pageSize 0 0)
    (Ledger.Straight.start_zero pageSize 0) hvalid (by omega)
  rw [Nat.zero_add] at hafter
  refine ⟨host', l, hrun, ?_⟩
  have harchive := Ledger.archive_foldl (.start pageSize 0) es
  rw [show (Ledger.start pageSize 0).archive = Archive.empty pageSize from rfl] at harchive
  rw [← harchive]
  exact hafter.1.obeys hafter.2.1 hafter.2.2

end

-- Pages of eight bytes, then of two, in which the first item does not fit any more, and of five.
theorem storage_law_shrunk :
    ∃ host' l, (Log.open ⟨"spool"⟩ 8 .pinned).run ⟨Disk.empty.addDirectory ["spool"], 0⟩ =
        (.ok l, host') ∧
      Obeys ⟨"spool"⟩ ["spool"]
        (Step.after ([.op (.append [1, 2, 3]), .reopen 2 .pinned, .op (.fetch 0), .op (.append []),
          .reopen 5 .pinned, .op (.removeBefore 1)].map (Event.perform ⟨"spool"⟩)) (host', l))
        ⟨5, 1, [⟨[], 2⟩]⟩ 2 :=
  storage_law _ [.op (.append [1, 2, 3]), .reopen 2 .pinned, .op (.fetch 0), .op (.append []),
      .reopen 5 .pinned, .op (.removeBefore 1)]
    (Disk.vacant_addDirectory (by decide)) (by decide) (by decide) .pinned
    (by simp [Event.IsValid, maxDataPageSize]) (by decide)

end Spool.Log
