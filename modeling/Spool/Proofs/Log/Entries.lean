import Spool.Proofs.Cache.Shown
import Spool.Proofs.Log.Fitting
import Spool.Proofs.Log.Slot

namespace Spool.Log

-- The entry for an index on the sheet of its page.
def Entry.onSheet (index : UInt64) (s : Sheet) : Entry :=
  decode (s.read (positionOf index) width)

def entrySheet (dir : Path) (d : Disk) (page : UInt64) : Except Error Sheet :=
  d.sheetAt (PageFile.path (dir.join indexDir) page)

-- The entry for an index, as it is found in the directory of entries.
def entryFound (dir : Path) (d : Disk) (index : UInt64) : Except Error Entry :=
  (entrySheet dir d (Entry.pageOf index)).map (Entry.onSheet index)

-- What is done with single entries.
inductive Touch where
  | read (index : UInt64)
  | write (index : UInt64) (e : Entry)

def Touch.perform : Touch → Action Unit
  | read index => discard (readEntry index)
  | write index e => writeEntry index e

-- The entry that was written last for an index.
def Touch.latest (index : UInt64) : List Touch → Option Entry
  | [] => none
  | read _ :: ts => latest index ts
  | write i e :: ts => (latest index ts).or (if index = i then some e else none)

theorem Touch.latest_cons (index : UInt64) (t : Touch) (ts : List Touch) :
    latest index (t :: ts) = (latest index ts).or (latest index [t]) := by
  cases t <;> simp [latest]

-- What is done with a log from outside, and with its entries from within.
inductive Turn where
  | act (a : Act)
  | touch (t : Touch)

def Turn.perform (dir : Path) : Turn → Action Unit
  | act a => a.perform dir
  | touch t => t.perform

-- What a log reads for each index: what its files say, unless it was closed.
inductive Yields (dir : Path) (s : Host × Log) (found : UInt64 → Except Error Entry) : Prop
  | open (h : Fits dir s) (hfound : ∀ i, found i = entryFound dir s.1.disk i)
  | closed (h : Idle s) (hfound : ∀ i, found i = .error (.cacheClosed s.2.index.dir))

-- A write goes as a read of its index does, and shows in that index and in no other.
structure Apart (s : Host × Log) : Prop where
  pageSize_eq : s.2.index.pageSize = Entry.pageSize
  read : ∀ i j, ((readEntry j).run ((readEntry i).run s).2).1 = ((readEntry j).run s).1
  write : ∀ i e, ((writeEntry i e).run s).1 = ((readEntry i).run s).1.map fun _ => ()
  written : ∀ i e j, ((readEntry j).run ((writeEntry i e).run s).2).1 =
    if j = i then ((readEntry i).run s).1.map fun _ => e else ((readEntry j).run s).1
  after : ∀ ts j, ((readEntry j).run (Step.after (ts.map Touch.perform) s)).1 =
    ((readEntry j).run s).1.map fun e => (Touch.latest j ts).getD e

namespace Entry

theorem onSheet_write_self (index : UInt64) (s : Sheet) (e : Entry) :
    onSheet index (s.write (positionOf index) e.encode) = e := by
  have hread := s.read_write_self (positionOf index) e.encode
  rw [length_encode] at hread
  rw [onSheet, hread, decode_encode]

theorem onSheet_write_of_ne {i j : UInt64} (hne : j ≠ i) (hpage : pageOf j = pageOf i) (s : Sheet) (e : Entry) :
    onSheet j (s.write (positionOf i) e.encode) = onSheet j s := by
  have hapart := (pageOf_ne_or_positionOf_apart hne).resolve_left (not_not_intro hpage)
  rw [onSheet, s.read_write_of_disjoint (by rwa [length_encode]), onSheet]

end Entry

section

variable {dir : Path} {s t : Host × Log} {page : UInt64}

-- An access to a page of a log that never refuses one of its size.
theorem Fits.onPage (h : Fits dir s) (f : Folder) {access : Page.Access α} {give : Sheet → α}
    {leave : Sheet → Sheet} (hsize : f.pageSize s.2.dataPageSize < Disk.maxFileSize)
    (himpartial : Page.Impartial access)
    (hacts : Page.Acts access page (f.pageSize s.2.dataPageSize) fun s => .ok (give s, leave s)) :
    Step.Ends (Step.inside f.part (Cache.withPage page access)) s
      ((s.1.disk.sheetAt (PageFile.path (dir.join f.name) page)).map fun t =>
        give (t.growTo (f.pageSize s.2.dataPageSize)))
      fun u => Fits dir u ∧ ∀ other, u.1.disk.sheetAt (PageFile.path (dir.join f.name) other) =
        if other = page then
          (s.1.disk.sheetAt (PageFile.path (dir.join f.name) page)).map fun t =>
            leave (t.growTo (f.pageSize s.2.dataPageSize))
        else s.1.disk.sheetAt (PageFile.path (dir.join f.name) other) := by
  have hpos := f.pageSize_pos h.dataPageSize_pos
  have hmimics := (h.mirrors f).withPage hpos h.wellFormed himpartial page
  have hgrows := Cache.grows_once h.wellFormed himpartial (dir.join f.name) page (f.pageSize s.2.dataPageSize)
  obtain ⟨hresult, hhost, -, hfits⟩ := h.inside f hmimics (hgrows.mono fun _ hgone => hgone.elim)
  have honce : Step.Ends
      (Page.once (PageFile.path (dir.join f.name) page) page (f.pageSize s.2.dataPageSize) access) s.1 _ _ :=
    Page.ends_once h.wellFormed hpos hsize hacts
  refine ⟨hresult.trans honce.1, hfits, fun other => ?_⟩
  rw [hhost]
  exact honce.2 other

private theorem Fits.onIndexPage (h : Fits dir s) {access : Page.Access α} {give : Sheet → α} {leave : Sheet → Sheet}
    (himpartial : Page.Impartial access)
    (hacts : Page.Acts access page Entry.pageSize fun s => .ok (give s, leave s)) :
    Step.Ends (onIndexPage page access) s
      ((entrySheet dir s.1.disk page).map fun s => give (s.growTo Entry.pageSize)) fun t =>
        Fits dir t ∧ ∀ other, entrySheet dir t.1.disk other =
          if other = page then (entrySheet dir s.1.disk page).map fun s => leave (s.growTo Entry.pageSize)
          else entrySheet dir s.1.disk other := by
  have hsize : Entry.pageSize < Disk.maxFileSize := by decide
  exact h.onPage .index hsize himpartial hacts

-- A page that was grown has the entries that it had.
private theorem entryFound_of_grown {d d' : Disk} (h : ∀ other, entrySheet dir d' other =
    if other = page then (entrySheet dir d page).map fun s => s.growTo Entry.pageSize
    else entrySheet dir d other) (j : UInt64) : entryFound dir d' j = entryFound dir d j := by
  unfold entryFound
  rw [h]
  split
  · next hpage =>
    rw [hpage]
    cases entrySheet dir d page <;> rfl
  · rfl

private theorem entryFound_of_written {d d' : Disk} {i : UInt64} {e : Entry}
    (h : ∀ other, entrySheet dir d' other =
      if other = Entry.pageOf i then (entrySheet dir d (Entry.pageOf i)).map fun s =>
        (s.growTo Entry.pageSize).write (Entry.positionOf i) e.encode
      else entrySheet dir d other) (j : UInt64) :
    entryFound dir d' j = if j = i then (entryFound dir d i).map fun _ => e else entryFound dir d j := by
  unfold entryFound
  rw [h]
  by_cases hpage : Entry.pageOf j = Entry.pageOf i
  · rw [if_pos hpage, hpage]
    cases entrySheet dir d (Entry.pageOf i) with
    | error e' => split <;> rfl
    | ok sheet =>
        split
        · next hsame =>
          subst hsame
          exact congrArg Except.ok (Entry.onSheet_write_self j _ e)
        · next hne => exact congrArg Except.ok (Entry.onSheet_write_of_ne hne hpage _ e)
  · have hne : j ≠ i := fun hsame => hpage (congrArg Entry.pageOf hsame)
    rw [if_neg hpage, if_neg hne]

theorem Fits.readEntry (h : Fits dir s) (i : UInt64) :
    Step.Ends (Log.readEntry i) s (entryFound dir s.1.disk i) fun t =>
      Fits dir t ∧ ∀ j, entryFound dir t.1.disk j = entryFound dir s.1.disk j := by
  have hacts : Page.Acts (Page.read (Entry.positionOf i) Entry.width) (Entry.pageOf i) Entry.pageSize _ :=
    Page.acts_read (by decide) (Entry.positionOf_add_width_le i)
  have hends := h.onIndexPage (Page.impartial_read _ _) hacts
  have hread := (hends.mono fun t ht => And.intro ht.1 (entryFound_of_grown ht.2)).map Entry.decode
  refine ⟨hread.1.trans ?_, hread.2⟩
  unfold entryFound
  cases entrySheet dir s.1.disk (Entry.pageOf i) <;> rfl

theorem Fits.writeEntry (h : Fits dir s) (i : UInt64) (e : Entry) :
    Step.Ends (Log.writeEntry i e) s ((entryFound dir s.1.disk i).map fun _ => ()) fun t =>
      Fits dir t ∧ ∀ j, entryFound dir t.1.disk j =
        if j = i then (entryFound dir s.1.disk i).map fun _ => e else entryFound dir s.1.disk j := by
  have hwithin : Entry.positionOf i + e.encode.length ≤ Entry.pageSize := by
    rw [Entry.length_encode]
    exact Entry.positionOf_add_width_le i
  have hacts : Page.Acts (Page.write (Entry.positionOf i) e.encode) (Entry.pageOf i) Entry.pageSize _ :=
    Page.acts_write hwithin
  have hends := h.onIndexPage (Page.impartial_write _ _) hacts
  have hwrite := hends.mono fun t ht => And.intro ht.1 (entryFound_of_written ht.2)
  refine ⟨hwrite.1.trans ?_, hwrite.2⟩
  unfold entryFound
  cases entrySheet dir s.1.disk (Entry.pageOf i) <;> rfl

namespace Yields

variable {found : UInt64 → Except Error Entry}

theorem readEntry (h : Yields dir s found) (i : UInt64) :
    Step.Ends (Log.readEntry i) s (found i) fun t => Yields dir t found := by
  cases h with
  | «open» h hfound =>
      rw [hfound]
      exact (h.readEntry i).mono fun t ht => .open ht.1 fun j => (hfound j).trans (ht.2 j).symm
  | closed h hfound =>
      rw [hfound]
      exact (h.spent.readEntry i).mono fun t ht => ht ▸ .closed h hfound

theorem writeEntry (h : Yields dir s found) (i : UInt64) (e : Entry) :
    Step.Ends (Log.writeEntry i e) s ((found i).map fun _ => ()) fun t =>
      Yields dir t fun j => if j = i then (found i).map fun _ => e else found j := by
  cases h with
  | «open» h hfound =>
      rw [hfound]
      refine (h.writeEntry i e).mono fun t ht => .open ht.1 fun j => ?_
      rw [ht.2, hfound]
  | closed h hfound =>
      rw [hfound]
      refine (h.spent.withPage .index _ _).mono fun t ht => ?_
      rw [ht]
      refine .closed h fun j => ?_
      rw [hfound]
      exact ite_self _

theorem touch (h : Yields dir s found) (t : Touch) : ∃ found', Yields dir (t.perform.run s).2 found' ∧
    ∀ j, found' j = (found j).map fun e => (Touch.latest j [t]).getD e := by
  cases t with
  | read i =>
      refine ⟨found, ?_, fun j => ?_⟩
      · rw [Touch.perform, Step.snd_run_discard]
        exact (h.readEntry i).2
      · cases found j <;> rfl
  | write i e =>
      refine ⟨_, (h.writeEntry i e).2, fun j => ?_⟩
      by_cases hsame : j = i
      · rw [if_pos hsame, hsame]
        cases found i <;> simp [Touch.latest, Except.map]
      · rw [if_neg hsame]
        cases found j <;> simp [Touch.latest, hsame, Except.map]

theorem after (ts : List Touch) (h : Yields dir s found) :
    ∃ found', Yields dir (Step.after (ts.map Touch.perform) s) found' ∧
      ∀ j, found' j = (found j).map fun e => (Touch.latest j ts).getD e := by
  induction ts generalizing s found with
  | nil =>
      refine ⟨found, h, fun j => ?_⟩
      cases found j <;> rfl
  | cons t ts ih =>
      obtain ⟨mid, hmid, hfirst⟩ := h.touch t
      obtain ⟨last, hlast, hrest⟩ := ih hmid
      refine ⟨last, hlast, fun j => ?_⟩
      rw [hrest, hfirst]
      cases found j with
      | error e => rfl
      | ok e =>
          rw [Touch.latest_cons j t ts]
          cases Touch.latest j ts <;> rfl

theorem apart (h : Yields dir s found) : Apart s where
  pageSize_eq := by
    cases h with
    | «open» h _ => exact (h.mirrors .index).pageSize_eq
    | closed h _ => exact h.indexPageSize
  read i j := by
    rw [((h.readEntry i).2.readEntry j).1, (h.readEntry j).1]
  write i e := by
    rw [(h.writeEntry i e).1, (h.readEntry i).1]
  written i e j := by
    rw [((h.writeEntry i e).2.readEntry j).1, (h.readEntry i).1, (h.readEntry j).1]
  after ts j := by
    obtain ⟨found', hyields, hfound⟩ := h.after ts
    rw [(hyields.readEntry j).1, (h.readEntry j).1, hfound]

theorem abides (h : Yields dir s found) : Abides dir s := by
  cases h with
  | «open» h _ => exact .open h
  | closed h _ => exact .closed h

end Yields

namespace Abides

theorem yields (h : Abides dir s) : ∃ found, Yields dir s found := by
  cases h with
  | «open» h => exact ⟨_, .open h fun _ => rfl⟩
  | closed h => exact ⟨_, .closed h fun _ => rfl⟩

theorem turn (h : Abides dir s) (t : Turn) : Abides dir ((t.perform dir).run s).2 := by
  cases t with
  | act a => exact h.act a
  | touch t =>
      obtain ⟨found, hyields⟩ := h.yields
      obtain ⟨found', hyields', -⟩ := hyields.touch t
      exact hyields'.abides

theorem after (ts : List Turn) (h : Abides dir s) : Abides dir (Step.after (ts.map (Turn.perform dir)) s) := by
  induction ts generalizing s with
  | nil => exact h
  | cons t ts ih => exact ih (h.turn t)

end Abides

end

-- Slots are whole and apart on their pages, an entry and its bytes come from one another, and so no entry
-- is read but as it was written last.
theorem entries_law {host host' : Host} (hwf : host.disk.WellFormed) {dir : Path} {dataPageSize : Nat}
    {policy : CachePolicy} {l : Log} (hopen : (Log.open dir dataPageSize policy).run host = (.ok l, host'))
    (ts : List Turn) :
    (∀ i, Entry.pageOf i = i >>> 17 ∧ Entry.positionOf i = ((i &&& 131071) * 32).toNat ∧
      Entry.positionOf i % Entry.width = 0 ∧ Entry.positionOf i + Entry.width ≤ Entry.pageSize) ∧
    (∀ i j, i ≠ j → Entry.pageOf i ≠ Entry.pageOf j ∨
      Entry.positionOf i + Entry.width ≤ Entry.positionOf j ∨
      Entry.positionOf j + Entry.width ≤ Entry.positionOf i) ∧
    (∀ e, Entry.decode e.encode = e) ∧
    (∀ bs, bs.length = Entry.width → (Entry.decode bs).encode = bs.take 28 ++ List.replicate 4 0) ∧
    Apart (Step.after (ts.map (Turn.perform dir)) (host', l)) := by
  refine ⟨fun i => ⟨Entry.pageOf_eq_shift i, Entry.positionOf_eq_mask i, Entry.positionOf_mod_width i,
    Entry.positionOf_add_width_le i⟩, fun i j => Entry.pageOf_ne_or_positionOf_apart, Entry.decode_encode,
    fun bs => Entry.encode_decode, ?_⟩
  have habides : Abides dir (host', l) := .open (fits_open hwf hopen)
  obtain ⟨found, hyields⟩ := (habides.after ts).yields
  exact hyields.apart

-- Entries on both sides of the end of a page, written after an item was appended.
theorem entries_law_neighbours : ∃ host' l,
    (Log.open ⟨"spool"⟩ 64 .pinned).run ⟨Disk.empty.addDirectory ["spool"], 0⟩ = (.ok l, host') ∧
      let s := Step.after (List.map (Turn.perform ⟨"spool"⟩) [.act (.request (.append [7]))]) (host', l)
      Apart s ∧ ((readEntry 131071).run (Step.after
        (List.map Touch.perform [.write 131071 ⟨2, 3, 4, -5, 6⟩, .write 131072 ⟨7, 8, 9, 10, 11⟩]) s)).1 =
          .ok ⟨2, 3, 4, -5, 6⟩ := by
  have hvacant : (Disk.empty.addDirectory ["spool"]).Vacant ⟨"spool"⟩ ["spool"] :=
    Disk.vacant_addDirectory (by decide)
  have hsite : (Host.mk (Disk.empty.addDirectory ["spool"]) 0).disk.Site ⟨"spool"⟩ ["spool"] := hvacant.site
  obtain ⟨l, b, hends, -⟩ := ends_open_any hsite (by decide : 0 < 64) (by decide) .pinned
  obtain ⟨host', hopen, hshows, -⟩ := hends.run_eq
  obtain ⟨reply, b', happend⟩ := hshows.request (.append [7])
  refine ⟨host', l, hopen, ?_⟩
  intro s
  have hlaw : Apart s := (entries_law hvacant.wellFormed hopen [.act (.request (.append [7]))]).2.2.2.2
  have hshows' : Shows ⟨"spool"⟩ ["spool"] s b' := happend.discard.2.shows
  refine ⟨hlaw, ?_⟩
  rw [hlaw.after, (hshows'.faces.readEntry (hshows'.grant_eq_ok .index _)).1]
  rfl

end Spool.Log
