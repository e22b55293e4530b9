import Spool.Proofs.Log.Run
import Spool.Proofs.Log.Spent

namespace Spool.Log

-- What is read at an index by a log that is opened on a directory for that.
def readBack (dir : Path) (dataPageSize : Nat) (policy : CachePolicy) (host : Host) (index : UInt64) :
    Except Error Bytes :=
  let openAndFetch : Step Host Bytes := do
    let l ← Log.open dir dataPageSize policy
    let (payload, _) ← Step.beside l (Log.fetch index)
    return payload
  (openAndFetch.run host).1

-- Whether a removal loses nothing if it fails: the window stays, and what could be read back still can.
def Spares (dir : Path) (removal : Action Unit) (s : Host × Log) : Prop :=
  ∀ e, (removal.run s).1 = .error e →
    (removal.run s).2.2.head = s.2.head ∧ (removal.run s).2.2.tail = s.2.tail ∧
      ∀ dataPageSize policy index payload,
        readBack dir dataPageSize policy s.1 index = .ok payload →
          readBack dir dataPageSize policy (removal.run s).2.1 index = .ok payload

-- When removals fail, and what they leave behind.
structure Refuses (dir : Path) (s : Host × Log) : Prop where
  removeBefore : ∀ index e, ((Log.removeBefore index).run s).1 = .error e →
    ((Log.removeBefore index).run s).2 = s
  removeBefore_closed : s.2.ends.closed → ∀ index, ∃ e, ((Log.removeBefore index).run s).1 = .error e
  removeAll : (Log.removeAll.run s).1 =
    if s.2.ends.closed then .error (.cacheClosed s.2.ends.dir) else .ok ()
  log : s.2.ends.closed → (Log.removeAll.run s).2.2 = s.2
  lost : s.2.ends.closed → ∀ dataPageSize policy index payload,
    readBack dir dataPageSize policy s.1 index = .ok payload →
      readBack dir dataPageSize policy (Log.removeAll.run s).2.1 index = .error (.corrupted index)

-- What happens to a log, whatever comes of it.
inductive Act where
  | request (r : Request)
  | pass (nanos : Nat)
  | close
  | reopen (dataPageSize : Nat) (policy : CachePolicy)

def Act.perform (dir : Path) : Act → Action Unit
  | request r => discard r.perform
  | pass nanos => passTime nanos
  | close => Log.close
  | reopen dataPageSize policy => Log.reopen dir dataPageSize policy

-- A log that was closed: nothing is in its caches, and its directories are there.
structure Rests (dir : Path) (base : Location) (s : Host × Log) : Prop where
  site : s.1.disk.Site dir base
  index : s.2.index.Shut s.1.disk (indexDir :: base)
  data : s.2.data.Shut s.1.disk (dataDir :: base)
  ends : s.2.ends.Shut s.1.disk (endsDir :: base)

-- What is left when a closed log was asked to remove all.
structure Emptied (dir : Path) (base : Location) (s t : Host × Log) : Prop where
  rests : Rests dir base t
  log : t.2 = s.2
  index : ∀ page, t.1.disk.image (indexDir :: base) page = none
  ends : t.1.disk.image (endsDir :: base) = s.1.disk.image (endsDir :: base)

-- A log that was opened at some time.
inductive Stands (dir : Path) (base : Location) (s : Host × Log) : Prop
  | open (b : Books) (h : Shows dir base s b)
  | closed (h : Rests dir base s)

section

variable {dir : Path} {base : Location} {host : Host} {s t : Host × Log} {b : Books} {index : UInt64}
  {payload : Bytes} {dataPageSize : Nat} {policy : CachePolicy}

section ReadBack

-- What is read is said by what the directories hold.
theorem readBack_eq (h : host.disk.Site dir base) (hpos : 0 < dataPageSize)
    (hle : dataPageSize ≤ maxDataPageSize) :
    readBack dir dataPageSize policy host index = (Books.found dataPageSize base host).answer index := by
  obtain ⟨l, b, hopen, hhead, htail, -, hfetch⟩ := ends_open_any h hpos hle policy
  obtain ⟨host', hrun, hshows, -⟩ := hopen.run_eq
  obtain ⟨b', hends, -⟩ := hshows.ends_fetch index
  have hanswer : b.answer index = (Books.found dataPageSize base host).answer index := by
    unfold Books.answer Books.contains
    rw [hhead, htail, hfetch]
  rw [readBack, Step.run_bind_of_run hrun, Step.run_beside_fst, hends.1, hanswer]

theorem pageSize_of_readBack (h : readBack dir dataPageSize policy host index = .ok payload) :
    0 < dataPageSize ∧ dataPageSize ≤ maxDataPageSize := by
  by_cases hinvalid : dataPageSize = 0 ∨ maxDataPageSize < dataPageSize
  · unfold readBack Log.open at h
    rw [if_pos hinvalid] at h
    cases h
  · omega

theorem Books.contains_of_answer (h : b.answer index = .ok payload) : b.contains index = true := by
  unfold Books.answer at h
  split at h
  · next hin => exact hin
  · cases h

-- Without its index pages a log reads nothing but zeros there.
theorem Books.answer_found_of_none (hnone : ∀ page, host.disk.image (indexDir :: base) page = none)
    (hin : (Books.found dataPageSize base host).contains index = true) :
    (Books.found dataPageSize base host).answer index = .error (.corrupted index) := by
  have hslot : (Books.found dataPageSize base host).slot index = List.replicate Entry.width 0 := by
    show (host.disk.image (indexDir :: base)).bytes _ _ _ = _
    rw [Image.bytes, Image.sheet, hnone]
    exact Sheet.read_blank _ _
  have hentry : (Books.found dataPageSize base host).entry index = ⟨0, 0, 0, 0, 0⟩ := by
    rw [Books.entry, hslot, Entry.decode_zeros]
  rw [Books.answer, if_pos hin, Books.fetch_of_zeros hentry]

end ReadBack

theorem Shows.retired (h : Shows dir base s b) : Rests dir base (s.1, s.2.retired) :=
  ⟨h.site, h.index.sound.retired, h.data.sound.retired, h.ends.sound.retired⟩

theorem Shows.refuses (h : Shows dir base s b) : Refuses dir s := by
  have hopen : s.2.ends.closed = false := h.ends.sound.notClosed
  refine ⟨fun index e he => ?_, fun hclosed => ?_, ?_, fun hclosed => ?_, fun hclosed => ?_⟩
  · cases hin : b.contains index with
    | true => cases (h.removeBefore hin).1.symm.trans he
    | false => exact (h.removeBefore_outOfRange hin).2
  · cases hopen.symm.trans hclosed
  · rw [h.removeAll.1, hopen]
    rfl
  · cases hopen.symm.trans hclosed
  · cases hopen.symm.trans hclosed

-- What happens in one of its directories leaves a closed log as it is.
theorem Rests.of_frame {name : String} (h : Rests dir base s)
    (hframe : Disk.Frame [name :: base] s.1.disk host.disk) (hfolder : host.disk.Folder (name :: base)) :
    Rests dir base (host, s.2) := by
  have hsite := h.site.of_frame hframe hfolder
  exact ⟨hsite, h.index.of_change hframe (hsite.parts _), h.data.of_change hframe (hsite.parts _),
    h.ends.of_change hframe (hsite.parts _)⟩

section Closed

variable (h : Rests dir base s)

include h

theorem Rests.shut (f : Folder) : (f.cache s.2).Shut s.1.disk (f.name :: base) := by
  cases f with
  | index => exact h.index
  | data => exact h.data
  | ends => exact h.ends

theorem Rests.spent : s.2.Spent :=
  fun f => (h.shut f).spent

private theorem Rests.deleteAll (f : Folder) :
    Step.Ends (Step.inside f.part Cache.deleteAll) s (.ok ()) fun t =>
      Rests dir base t ∧ t.2 = s.2 ∧ (∀ page, t.1.disk.image (f.name :: base) page = none) ∧
        Disk.Frame [f.name :: base] s.1.disk t.1.disk := by
  have hdelete := (h.shut f).deleteWhere fun _ => true
  rw [← Folder.get_part s f] at hdelete
  refine Step.Ends.inside (hdelete.mono ?_)
  rintro ⟨host, c⟩ ⟨hcache, hleads⟩
  obtain rfl : c = f.cache s.2 := hcache
  have hframe : Disk.Frame [f.name :: base] s.1.disk host.disk := hleads.frame
  have himage : host.disk.image (f.name :: base) = _ := hleads.image
  rw [Folder.set_part_cache]
  refine ⟨h.of_frame hframe hleads.sound.houses.is_folder, rfl, fun page => ?_, hframe⟩
  show host.disk.image (f.name :: base) page = none
  rw [himage]
  rfl

-- The pages go first, and then the counters are refused.
theorem Rests.removeAll :
    Step.Ends Log.removeAll s (.error (.cacheClosed s.2.ends.dir)) fun t =>
      Emptied dir base s t := by
  unfold Log.removeAll
  refine (h.deleteAll .index).bind ?_
  rintro t ⟨hrests, hlog, hnone, hframe⟩
  refine (hrests.deleteAll .data).bind ?_
  rintro u ⟨hrests', hlog', -, hframe'⟩
  have hsame : u.2 = s.2 := hlog'.trans hlog
  have hrefused : Step.Ends (Log.publish headPosition 0) u (.error (.cacheClosed s.2.ends.dir)) (· = u) := by
    rw [← hsame]
    exact hrests'.spent.withPage .ends _ _
  refine Step.Ends.bind_error (hrefused.mono ?_)
  rintro _ rfl
  refine ⟨hrests', hsame, fun page => ?_, ?_⟩
  · have hindex := hframe'.image_eq (Folder.place_not_mem (by decide : Folder.index ≠ .data) base)
    exact (congrFun hindex page).trans (hnone page)
  · have hends := hframe.image_eq (Folder.place_not_mem (by decide : Folder.ends ≠ .index) base)
    have hends' := hframe'.image_eq (Folder.place_not_mem (by decide : Folder.ends ≠ .data) base)
    exact hends'.trans hends

theorem Rests.append (payload : Bytes) :
    ∃ e, Step.Ends (Log.append payload) s (.error e) fun t => Rests dir base t := by
  obtain ⟨e, cursor, hends⟩ := h.spent.append payload
  refine ⟨e, hends.mono ?_⟩
  rintro _ rfl
  exact ⟨h.site, h.index, h.data, h.ends⟩

theorem Rests.request (r : Request) : ∃ reply, Step.Ends r.perform s reply fun t => Rests dir base t := by
  have hsame : ∀ t, t = s → Rests dir base t := fun _ ht => ht ▸ h
  cases r with
  | append payload =>
      obtain ⟨e, hends⟩ := h.append payload
      exact ⟨_, hends.map Reply.index⟩
  | fetch index => exact ⟨_, ((h.spent.fetch index).mono hsame).map Reply.payload⟩
  | timestampOf index => exact ⟨_, ((h.spent.timestampOf index).mono hsame).map Reply.time⟩
  | removeAll => exact ⟨_, (h.removeAll.mono fun t ht => ht.rests).map fun _ => Reply.done⟩
  | removeBefore index =>
      exact ⟨_, ((h.spent.removeBefore index).mono hsame).map fun _ => Reply.done⟩
  | dataPages => exact ⟨_, ((ends_look _ s).mono hsame).map Reply.pages⟩
  | diskUsage => exact ⟨_, ((ends_look _ s).mono hsame).map Reply.bytes⟩
  | flush =>
      have hflush : Step.Ends Log.flush s (.ok ()) (Rests dir base) := by
        unfold Step.Ends
        rw [h.spent.flush]
        exact ⟨rfl, h⟩
      exact ⟨_, hflush.map fun _ => Reply.done⟩

theorem Rests.refuses : Refuses dir s := by
  have hclosed : s.2.ends.closed = true := h.ends.closed
  obtain ⟨herror, hemptied⟩ := h.removeAll
  refine ⟨fun index _ _ => (h.spent.removeBefore index).2, fun _ index => ⟨_, (h.spent.removeBefore index).1⟩,
    ?_, fun _ => hemptied.log, ?_⟩
  · rw [herror, hclosed]
    rfl
  · intro _ dataPageSize policy index payload hread
    obtain ⟨hpos, hle⟩ := pageSize_of_readBack hread
    rw [readBack_eq h.site hpos hle] at hread
    have hin := Books.contains_of_answer hread
    have hwindow : (Books.found dataPageSize base s.1).contains index =
        (Books.found dataPageSize base (Log.removeAll.run s).2.1).contains index := by
      unfold Books.contains Books.found Books.takeUp Books.fresh
      rw [hemptied.ends]
    rw [readBack_eq hemptied.rests.site hpos hle]
    exact Books.answer_found_of_none hemptied.index (hwindow ▸ hin)

end Closed

theorem Stands.refuses (h : Stands dir base s) : Refuses dir s := by
  cases h with
  | «open» b h => exact h.refuses
  | closed h => exact h.refuses

theorem Stands.retired (h : Stands dir base s) : Rests dir base (s.1, s.2.retired) := by
  cases h with
  | «open» b h => exact h.retired
  | closed h =>
      rw [h.spent.retired_eq]
      exact h

theorem Stands.close (h : Stands dir base s) : Rests dir base (Log.close.run s).2 := by
  rw [snd_run_close]
  exact h.retired

theorem Stands.reopen (h : Stands dir base s) (dataPageSize : Nat) (policy : CachePolicy) :
    Stands dir base ((Log.reopen dir dataPageSize policy).run s).2 := by
  have hclosed := h.retired
  by_cases hvalid : 0 < dataPageSize ∧ dataPageSize ≤ maxDataPageSize
  · obtain ⟨l, b, hopen, -⟩ := ends_open_any hclosed.site hvalid.1 hvalid.2 policy
    have hends : Step.Ends (Log.reopen dir dataPageSize policy) s (.ok ()) (Stands dir base) :=
      ends_reopen (hopen.mono fun _ ht => .open b ht.1)
    exact hends.2
  · rw [run_reopen_of_invalid hvalid policy]
    exact .closed hclosed

theorem Stands.act (h : Stands dir base s) (a : Act) : Stands dir base ((a.perform dir).run s).2 := by
  cases a with
  | request r =>
      cases h with
      | «open» b h =>
          obtain ⟨reply, b', hends⟩ := h.request r
          exact .open b' hends.discard.2.shows
      | closed h =>
          obtain ⟨reply, hends⟩ := h.request r
          exact .closed hends.discard.2
  | pass nanos =>
      cases h with
      | «open» b h => exact .open _ (h.sweep _).shows
      | closed h =>
          refine .closed ?_
          show Rests dir base ({ s.1 with now := s.1.now + nanos }, s.2.sweep (s.1.now + nanos))
          rw [h.spent.sweep_eq]
          exact ⟨h.site, h.index, h.data, h.ends⟩
  | close => exact .closed h.close
  | reopen dataPageSize policy => exact h.reopen dataPageSize policy

theorem Stands.after (as : List Act) (h : Stands dir base s) :
    Stands dir base (Step.after (as.map (Act.perform dir)) s) := by
  induction as generalizing s with
  | nil => exact h
  | cons a as ih => exact ih (h.act a)

end

section

variable {dir : Path} {base : Location} {s : Host × Log}

theorem Refuses.spares_removeBefore (h : Refuses dir s) (index : UInt64) :
    Spares dir (Log.removeBefore index) s := by
  intro e he
  rw [h.removeBefore index e he]
  exact ⟨rfl, rfl, fun _ _ _ _ hread => hread⟩

-- So all is lost unless there was nothing to lose.
theorem Refuses.spares_removeAll_iff (h : Refuses dir s) :
    Spares dir Log.removeAll s ↔
      (s.2.ends.closed → ∀ dataPageSize policy index payload,
        readBack dir dataPageSize policy s.1 index ≠ .ok payload) := by
  have hresult := h.removeAll
  constructor
  · intro hspares hclosed dataPageSize policy index payload hread
    rw [if_pos hclosed] at hresult
    have hkept := (hspares _ hresult).2.2 dataPageSize policy index payload hread
    cases (h.lost hclosed _ _ _ _ hread).symm.trans hkept
  · intro hnothing e he
    by_cases hclosed : s.2.ends.closed
    · rw [h.log hclosed]
      exact ⟨rfl, rfl, fun _ _ _ _ hread => absurd hread (hnothing hclosed _ _ _ _)⟩
    · rw [if_neg hclosed] at hresult
      cases hresult.symm.trans he

-- Whatever the directories held and whatever was done before, closing included.
theorem removal_law (host : Host) (as : List Act) (h : host.disk.Site dir base) {dataPageSize : Nat}
    (hpos : 0 < dataPageSize) (hle : dataPageSize ≤ maxDataPageSize) (policy : CachePolicy) :
    ∃ host' l, (Log.open dir dataPageSize policy).run host = (.ok l, host') ∧
      let s := Step.after (as.map (Act.perform dir)) (host', l)
      Refuses dir s ∧ (∀ index, Spares dir (Log.removeBefore index) s) ∧
        (Spares dir Log.removeAll s ↔
          (s.2.ends.closed → ∀ dataPageSize policy index payload,
            readBack dir dataPageSize policy s.1 index ≠ .ok payload)) := by
  obtain ⟨l, b, hopen, -⟩ := ends_open_any h hpos hle policy
  obtain ⟨host', hrun, hshows, -⟩ := hopen.run_eq
  have hrefuses := ((Stands.open b hshows).after as).refuses
  exact ⟨host', l, hrun, hrefuses, hrefuses.spares_removeBefore, hrefuses.spares_removeAll_iff⟩

end

-- An item that was appended before the log was closed.
theorem removal_law_closed : ∃ host' l,
    (Log.open ⟨"spool"⟩ 64 .pinned).run ⟨Disk.empty.addDirectory ["spool"], 0⟩ = (.ok l, host') ∧
    let s := Step.after ([.request (.append [111, 110, 101]), .close].map (Act.perform ⟨"spool"⟩))
      (host', l)
    Refuses ⟨"spool"⟩ s ∧ (∀ index, Spares ⟨"spool"⟩ (Log.removeBefore index) s) ∧
      (Spares ⟨"spool"⟩ Log.removeAll s ↔
        (s.2.ends.closed → ∀ dataPageSize policy index payload,
          readBack ⟨"spool"⟩ dataPageSize policy s.1 index ≠ .ok payload)) :=
  removal_law _ _ (Disk.vacant_addDirectory (by decide)).site (by decide) (by decide) .pinned

-- It could be read back, and is lost when all are to be removed, although that fails.
theorem not_spares_removeAll_closed : ∃ host' l,
    (Log.open ⟨"spool"⟩ 64 .pinned).run ⟨Disk.empty.addDirectory ["spool"], 0⟩ = (.ok l, host') ∧
    ¬Spares ⟨"spool"⟩ Log.removeAll
      (Step.after ([.request (.append [111, 110, 101]), .close].map (Act.perform ⟨"spool"⟩))
        (host', l)) := by
  have hstarts : StartsAt (Host.mk (Disk.empty.addDirectory ["spool"]) 0).disk ⟨"spool"⟩ ["spool"] 0 :=
    startsAt_zero (Disk.vacant_addDirectory (by decide))
  obtain ⟨l, hopen⟩ := hstarts.open (by decide : 0 < 64) (by decide) .pinned
  obtain ⟨host', hrun, hstart, -⟩ := hopen.run_eq
  have hends := hstart.ends_append (Ledger.Within.start _ _ 0) (by decide) [111, 110, 101]
  have happend := (hends.map Reply.index).discard.2.holds
  have hstraight := (Ledger.Straight.start_zero 64 0).turn (o := .append [111, 110, 101]) (by decide)
  obtain ⟨l', hreopen⟩ := happend.reopen (by decide : 0 < 64) (by decide) .pinned hstraight.intact
  obtain ⟨host'', hrun', hholds, -⟩ := hreopen.run_eq
  obtain ⟨b, hshows, -⟩ := happend
  have hrests := (Stands.open b hshows).close
  refine ⟨host', l, hrun, fun hspares => ?_⟩
  refine hrests.refuses.spares_removeAll_iff.mp hspares hrests.ends.closed 64 .pinned 0 [111, 110, 101] ?_
  show readBack ⟨"spool"⟩ 64 .pinned (Log.close.run _).2.1 0 = _
  rw [snd_run_close, readBack, Step.run_bind_of_run hrun', Step.run_beside_fst]
  exact (hholds.fetch 0).1

end Spool.Log
