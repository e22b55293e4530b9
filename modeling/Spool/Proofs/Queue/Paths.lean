import Spool.Proofs.Log.Damage
import Spool.Proofs.Queue.Telling

namespace Spool.Queue

-- A change of the directories of the items: none of the files is taken away or cut.
structure Wears (base : Location) (d d' : Disk) : Prop extends
    Disk.Frame [Log.indexDir :: base, Log.dataDir :: base] d d' where
  files : ∀ l id, d.node? l = some (.file id) →
    d'.node? l = some (.file id) ∧ (d.content id).size ≤ (d'.content id).size

def onDisk (s : Host × Store × Queue) (d : Disk) : Host × Store × Queue :=
  ({ s.1 with disk := d }, s.2)

-- What a queue may go through: a stage of its life, or its items wear.
inductive Season where
  | stage (stage : Stage)
  | wear (d : Disk)

namespace Season

def perform (dir : Path) : Season → Action Unit
  | stage st => st.perform dir
  | wear d => modify fun s => onDisk s d

-- A queue that goes on living needs its directories to hold nothing but page files.
def Allowed (dir : Path) (base : Location) : Season → Host × Store × Queue → Prop
  | stage st, _ => st.IsValid
  | wear d, s => Wears base s.1.disk d ∧ d.Site dir base

end Season

-- All that is read of a queue goes by its front and by what comes of each of the waiting items.
structure Agrees (s : Host × Store × Queue) (front : UInt64) (results : List (Except Error Bytes)) :
    Prop where
  frontIndex : (Queue.frontIndex.run s).1 = .ok front
  size : (Queue.size.run s).1.map UInt64.toNat = .ok results.length
  fetch : ∀ (k : Nat) r, results[k]? = some r →
    ((Log.fetch (front + UInt64.ofNat k)).run (s.1, s.2.1.log)).1 = r
  peekAt : ∀ (k : Nat) r, results[k]? = some r → ((Queue.peekAt k).run s).1 = r.map some
  dequeues : (Step.series Queue.dequeue results.length s).1 = results.map (Except.map some)
  emptied : (Queue.isEmpty.run (Step.series Queue.dequeue results.length s).2).1 = .ok true
  forEach : ((Queue.forEach pure).run s).1 = .ok (untilError results)
  untaken : (Queue.frontIndex.run ((Queue.forEach (β := Bytes) pure).run s).2).1 = .ok front

section

variable {dir : Path} {base : Location} {s : Host × Store × Queue} {b : Log.Books} {d d' : Disk}
  {said : UInt64 → Except Error Bytes} {head front : UInt64}

theorem Wears.grows (h : Wears base d d') (hwf : d.WellFormed) : Disk.Grows (fun _ => False) d d' :=
  ⟨h.directories, fun l id _ hl => h.files l id hl, (h.wellFormed hwf).toNumbered, h.refuses⟩

-- Other bytes in a page file of the items.
theorem wears_setContent {f : Log.Folder} {page : UInt64} {file : FileId} {c : Content}
    (hwf : d.WellFormed) (hf : f.name ≠ Log.endsDir)
    (hnode : d.node? (PageFile.name page :: f.name :: base) = some (.file file))
    (hsize : (d.content file).size ≤ c.size) : Wears base d (d.setContent file c) where
  toFrame := by
    have hextends := (Disk.rewrites_setContent d file c).extends_place hwf.toNumbered hnode hsize
    refine hextends.toFrame.mono ?_
    rintro _ (⟨⟩ | ⟨_, ⟨⟩⟩)
    cases f with
    | index => exact List.mem_cons_self
    | data => exact List.mem_cons_of_mem _ List.mem_cons_self
    | ends => exact absurd rfl hf
  files l file' hl := by
    have hgrows : Disk.Grows (fun _ => False) d (d.setContent file c) := Disk.grows_setContent hwf.toNumbered hsize
    exact hgrows.files l file' id hl

-- The books of a queue whose items have worn: the head and the front are where they were.
theorem Shows.wears (h : Shows dir base s b front) (hwears : Wears base s.1.disk d) :
    ∃ b', Faces base (onDisk s d) b' front ∧ b'.head = b.head := by
  have hgrows := hwears.grows h.log.site.wellFormed
  have hends : Log.endsDir :: base ∉ [Log.indexDir :: base, Log.dataDir :: base] := by
    simp [Log.indexDir, Log.dataDir, Log.endsDir]
  have hfront : frontDir :: base ∉ [Log.indexDir :: base, Log.dataDir :: base] := by
    simp [Log.indexDir, Log.dataDir, frontDir]
  have hfaces := h.faces
  refine ⟨{ b with index := d.image (Log.indexDir :: base), data := d.image (Log.dataDir :: base) }, ?_, rfl⟩
  exact {
    log := {
      dataPageSize := hfaces.log.dataPageSize
      now := hfaces.log.now
      head := hfaces.log.head
      tail := hfaces.log.tail
      cursor := hfaces.log.cursor
      copes := fun f => (hfaces.log.copes f).of_grows hgrows
      pageSize := fun f => (hfaces.log.pageSize f).trans (by cases f <;> rfl)
      image := fun f => by
        cases f with
        | index => rfl
        | data => rfl
        | ends => exact (hwears.image_eq hends).trans (hfaces.log.image .ends) }
    copes := hfaces.copes.of_grows hgrows
    pageSize := hfaces.pageSize
    word := (hwears.image_eq hfront).symm ▸ hfaces.word
    granted := (Cache.grant_of_frame hwears.toFrame hfront _ _).trans hfaces.granted
    notClosed := hfaces.notClosed }

theorem Tells.agrees (h : Tells base s said head front) :
    Agrees s front (reads said front (head - front).toNat) := by
  have hlength := length_reads said front (head - front).toNat
  have hread : ∀ {k r}, (reads said front (head - front).toNat)[k]? = some r →
      k < (head - front).toNat ∧ said (front + UInt64.ofNat k) = r := by
    intro k r hk
    have hlt : k < (head - front).toNat := by
      rw [← hlength]
      exact (List.getElem?_eq_some_iff.mp hk).1
    exact ⟨hlt, Option.some.inj ((getElem?_reads said front hlt).symm.trans hk)⟩
  obtain ⟨hresults, hend⟩ := h.dequeues (Nat.le_refl (head - front).toNat)
  constructor
  case frontIndex => exact h.frontIndex.1
  case size =>
    rw [h.size.1, hlength]
    rfl
  case fetch =>
    intro k r hk
    obtain ⟨-, rfl⟩ := hread hk
    obtain ⟨b, hfaces, -, hsaid⟩ := h.faces
    obtain ⟨b', hfetch, -⟩ := hfaces.log.ends_fetch (front + UInt64.ofNat k)
    exact hfetch.1.trans (hsaid _)
  case peekAt =>
    intro k r hk
    obtain ⟨hlt, rfl⟩ := hread hk
    exact (h.peekAt hlt).1
  case dequeues =>
    rw [hlength]
    exact hresults
  case emptied =>
    rw [hlength, hend.isEmpty.1]
    simp only [Circle.ofNat_sub_toNat, decide_true]
  case forEach => exact h.forEach.1
  case untaken => exact h.forEach.2.frontIndex.1

-- A queue that can go on.
def Lasts (dir : Path) (base : Location) (s : Host × Store × Queue) : Prop :=
  ∃ b front, Shows dir base s b front ∧ s.2.2.Attended front b.head

theorem Lasts.season (h : Lasts dir base s) {season : Season} (hallowed : season.Allowed dir base s) :
    Lasts dir base ((season.perform dir).run s).2 := by
  obtain ⟨b, front, hshows, hattended⟩ := h
  cases season with
  | wear d =>
      obtain ⟨b', hfaces, hhead⟩ := hshows.wears hallowed.1
      exact ⟨b', front, hfaces.shows hallowed.2, hhead.symm ▸ hattended⟩
  | stage stage =>
      cases stage with
      | move m =>
          obtain ⟨r, b', front', hends⟩ := hshows.move hattended m
          have hmoves := hends.discard.2
          exact ⟨b', front', hmoves.shows, hmoves.turn.attended hattended⟩
      | reopen closing pageSize policy =>
          obtain ⟨b', hends, -⟩ := hshows.reopen closing hallowed.1 hallowed.2 policy
          exact ⟨b', _, hends.2.1, hends.2.2.1.attended _ _⟩

theorem Lasts.after (seasons : List Season) (h : Lasts dir base s)
    (hallowed : Step.Along (Season.perform dir) (Season.Allowed dir base) seasons s) :
    Lasts dir base (Step.after (seasons.map (Season.perform dir)) s) := by
  induction seasons generalizing s with
  | nil => exact h
  | cons season seasons ih => exact ih (h.season hallowed.1) hallowed.2

-- Whatever was on the disk at first and whatever was done since: however the items have worn in the
-- meantime and wear in the end, directories in the places of page files included.
theorem paths_law (host : Host) (h : host.disk.Site dir base) {pageSize : Nat} (hpos : 0 < pageSize)
    (hle : pageSize ≤ Log.maxDataPageSize) (policy : CachePolicy) :
    ∃ host' sq, (openAt dir pageSize policy).run host = (.ok sq, host') ∧
      ∀ seasons : List Season,
        Step.Along (Season.perform dir) (Season.Allowed dir base) seasons (host', sq) →
          let s := Step.after (seasons.map (Season.perform dir)) (host', sq)
          s.2.1.faults = [] → ∀ d, Wears base s.1.disk d →
            ∃ front results, Agrees (onDisk s d) front results ∧ ∀ n ≤ results.length,
              Agrees (Step.series Queue.dequeue n (onDisk s d)).2 (front + UInt64.ofNat n)
                (results.drop n) := by
  obtain ⟨sq, b, hopen, -, -, -, -, hfresh⟩ := ends_openAt_any h hpos hle policy
  obtain ⟨host', hrun, hshows⟩ := hopen.run_eq
  refine ⟨host', sq, hrun, fun seasons hallowed hfaults d hwears => ?_⟩
  have hstart : Lasts dir base (host', sq) := ⟨b, _, hshows, hfresh.attended _ _⟩
  obtain ⟨b₁, front, hafter, -⟩ := hstart.after seasons hallowed
  obtain ⟨b₂, hfaces, -⟩ := hafter.wears hwears
  have htells := hfaces.tells hfaults
  refine ⟨front, _, htells.agrees, fun n hn => ?_⟩
  rw [length_reads] at hn
  rw [drop_reads, ← Circle.toNat_sub_add hn]
  exact (htells.dequeues hn).2.agrees

-- The disk on which the only item of a queue has lost its first letter.
private theorem Shows.exists_wears {payload : Bytes} (hpos : 0 < payload.length)
    (hfits : payload.length ≤ b.dataPageSize) (hle : b.dataPageSize ≤ Log.maxDataPageSize)
    (hin : (b.append payload).contains b.head = true)
    (h : Shows dir base s (b.append payload) front) :
    ∃ d, Wears base s.1.disk d ∧
      ((Log.fetch b.head).run ((onDisk s d).1, s.2.1.log)).1 = .error (.corrupted b.head) := by
  obtain ⟨e, file, c, hfetch, hentry, hnode, hburst⟩ := h.log.exists_burst_append hpos hfits hle hin
  refine ⟨_, wears_setContent (f := .data) h.log.site.wellFormed (by decide) hnode hburst.size, ?_⟩
  exact (h.log.detects hfetch hentry hnode hburst).corrupted

-- With nobody waiting and no fault planned, a payload is appended and that is all.
private theorem Shows.enqueue_alone {payload : Bytes} (h : Shows dir base s b front)
    (hfits : payload.length ≤ b.dataPageSize) (hfaults : s.2.1.faults = []) (hfresh : Fresh s.2.2) :
    Step.Ends (Queue.enqueue payload) s (.ok ()) fun t =>
      Shows dir base t (b.append payload) front ∧ t.2.1.faults = [] := by
  rcases h.onStore .append (h.log.append hfits) with happend | ⟨fault, hfails, -⟩
  · refine h.expectOpen_bind (happend.discard.bind fun t ht => ?_)
    have hwaits : ∀ id, ¬t.2.2.Waits id := by
      rintro id ⟨wakers, hslot⟩
      rw [ht.2.queue, slot?, hfresh.slots] at hslot
      cases hslot
    refine Step.Ends.of_run_eq (completeWaiters_run_of_none hwaits) (Step.ends_pure ⟨ht.1, ?_⟩)
    exact List.sublist_nil.mp (hfaults ▸ ht.2.faults)
  · rw [Store.Fails, hfaults] at hfails
    cases hfails.1

end

-- An item that was enqueued and then lost its first letter.
theorem paths_law_corrupted :
    ∃ host' sq, (openAt ⟨"spool"⟩ 64 .pinned).run ⟨Disk.empty.addDirectory ["spool"], 0⟩ =
        (.ok sq, host') ∧
      let s := Step.after ([.stage (.move (.op (.enqueue [111, 110, 101])))].map
        (Season.perform ⟨"spool"⟩)) (host', sq)
      ∃ d, Wears ["spool"] s.1.disk d ∧
        ((Log.fetch 0).run ((onDisk s d).1, s.2.1.log)).1 = .error (.corrupted 0) ∧
        ∃ front results, Agrees (onDisk s d) front results ∧ ∀ n ≤ results.length,
          Agrees (Step.series Queue.dequeue n (onDisk s d)).2 (front + UInt64.ofNat n)
            (results.drop n) := by
  have hvacant : (Host.mk (Disk.empty.addDirectory ["spool"]) 0).disk.Vacant ⟨"spool"⟩ ["spool"] :=
    Disk.vacant_addDirectory (by decide)
  have hstarts := Log.startsAt_zero hvacant
  obtain ⟨host', sq, hrun, hlaw⟩ := paths_law _ hvacant.site (by decide : 0 < 64) (by decide) .pinned
  obtain ⟨sq', b, hopen, hhead, htail, hsize, hfaults, hfresh⟩ :=
    ends_openAt_any hvacant.site (by decide : 0 < 64) (by decide) .pinned
  obtain ⟨host'', hrun', hshows⟩ := hopen.run_eq
  obtain ⟨hsq, rfl⟩ := Prod.mk.inj (hrun.symm.trans hrun')
  obtain rfl := Except.ok.inj hsq
  have hfits : ([111, 110, 101] : Bytes).length ≤ b.dataPageSize := by
    rw [hsize]
    decide
  have hfirst : b.head = 0 := hhead.trans hstarts.head
  have hin : (b.append [111, 110, 101]).contains b.head = true := by
    show decide (b.head - b.tail < b.head + 1 - b.tail) = true
    rw [hfirst, htail.trans hstarts.tail]
    decide
  have henqueued := (hshows.enqueue_alone hfits hfaults hfresh).2
  have hstate := Move.run_act (.op (.enqueue [111, 110, 101])) (host', sq)
  rw [Move.run_enqueue] at hstate
  rw [← hstate] at henqueued
  obtain ⟨d, hwears, hcorrupted⟩ :=
    henqueued.1.exists_wears (by decide) hfits (by rw [hsize]; decide) hin
  rw [hfirst] at hcorrupted
  exact ⟨host', sq, hrun, d, hwears, hcorrupted, hlaw
    [.stage (.move (.op (.enqueue [111, 110, 101])))] ⟨trivial, trivial⟩ henqueued.2 d hwears⟩

end Spool.Queue
