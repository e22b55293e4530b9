import Spool.Proofs.Cache.Transparent
import Spool.Proofs.Log.Folder
import Spool.Proofs.Log.Requests
import Spool.Proofs.Step.Respects

namespace Spool

namespace Log

def onCaches (change : Folder → Cache → Cache) (l : Log) : Log :=
  { l with index := change .index l.index, data := change .data l.data, ends := change .ends l.ends }

-- What may be done for the caches of a log at any time.
inductive Upkeep where
  -- One cache looks for idle pages, whether or not it is time to.
  | evict (folder : Folder) (now : Nat)
  | sweep (now : Nat)
  | flush

def Upkeep.perform : Upkeep → Action Unit
  | evict folder now => modify fun (host, l) =>
    (host, l.onCaches fun f c => if f = folder then c.evictIdle now else c)
  | sweep now => modify fun (host, l) => (host, l.sweep now)
  | flush => Log.flush

inductive Moment where
  -- A request, with what the clock says.
  | request (now : Nat) (r : Request)
  | upkeep (u : Upkeep)

def Moment.isRequest : Moment → Bool
  | request _ _ => true
  | upkeep _ => false

def atTime (now : Nat) (s : Host × Log) : Host × Log :=
  ({ s.1 with now }, s.2)

-- What each request comes to, and the host with all its files after it.
def watch : List Moment → Host × Log → List (Except Error Reply × Host)
  | [], _ => []
  | .request now r :: ms, s =>
    let (reply, s) := r.perform.run (atTime now s)
    (reply, s.1) :: watch ms s
  | .upkeep u :: ms, s => watch ms (u.perform.run s).2

-- The same from the opening of a log on.
def openAndWatch (dir : Path) (dataPageSize : Nat) (policy : CachePolicy) (ms : List Moment) :
    Step Host (List (Except Error Reply × Host)) := do
  let l ← Log.open dir dataPageSize policy
  return watch ms (← get, l)

-- Every cache of a log is open, and its pages are on the files that their paths lead to.
structure Fits (dir : Path) (s : Host × Log) : Prop where
  wellFormed : s.1.disk.WellFormed
  dataPageSize_pos : 0 < s.2.dataPageSize
  mirrors : ∀ f : Folder, (f.cache s.2).Mirrors s.1.disk (dir.join f.name) (f.pageSize s.2.dataPageSize)

-- What looking after the caches leaves as it was.
structure Tends (dir : Path) (s t : Host × Log) : Prop where
  host : t.1 = s.1
  counts : SameCounts s.2 t.2
  fits : Fits dir t

structure Twins (dir : Path) (s t : Host × Log) : Prop where
  host : s.1 = t.1
  counts : SameCounts s.2 t.2
  left : Fits dir s
  right : Fits dir t

section

variable {dir : Path} {s t : Host × Log} {host : Host} {l l' : Log} {f g : Folder}

theorem Tends.trans {u : Host × Log} (h : Tends dir s t) (h' : Tends dir t u) : Tends dir s u :=
  ⟨h'.host.trans h.host, h.counts.trans h'.counts, h'.fits⟩

section Inside

-- A step in one directory that comes to what a step of the host alone comes to, and takes no files but
-- those of the directory, leaves the other caches as good as they were.
theorem Fits.inside (h : Fits dir s) (f : Folder) {x : Cache.Action α} {y : Step Host α}
    (hmimics : Cache.Mimics (dir.join f.name) (f.pageSize s.2.dataPageSize) x y (s.1, f.cache s.2))
    (hgrows : Disk.Grows (Cache.IsIn f.name) s.1.disk (y.run s.1).2.disk) :
    Step.Ends (Step.inside f.part x) s (y.run s.1).1 fun t =>
      t.1 = (y.run s.1).2 ∧ SameCounts s.2 t.2 ∧ Fits dir t := by
  have hstep : Step.Ends x (f.part.get s) (y.run s.1).1 fun u =>
      u.1 = (y.run s.1).2 ∧ u.2.Mirrors u.1.disk (dir.join f.name) (f.pageSize s.2.dataPageSize) := by
    rw [Folder.get_part s f]
    exact hmimics
  refine Step.Ends.inside (hstep.mono fun u hu => ?_)
  obtain ⟨hhost, hmirrors⟩ := hu
  have hcounts := Folder.sameCounts_set_part u s f
  have hfirst := (Folder.fst_set_part u s f).trans hhost
  refine ⟨hfirst, hcounts, ?_, ?_, fun g => ?_⟩
  · rw [hfirst]
    exact hgrows.wellFormed h.wellFormed
  · rw [← hcounts.dataPageSize]
    exact h.dataPageSize_pos
  · rw [Folder.cache_set_part u s f g, ← congrArg g.pageSize hcounts.dataPageSize, hfirst]
    split
    · next hg =>
      rw [hg, ← hhost]
      exact hmirrors
    · next hne =>
      refine (h.mirrors g).of_grows hgrows fun index place _ hplace hin => hne ?_
      have hin' := Cache.isIn_of_locate g.partName.isName hplace
      exact Folder.name_injective (Option.some.inj (hin'.symm.trans hin))

theorem Twins.inside (h : Twins dir s t) (f : Folder) {x : Cache.Action α} {y : Step Host α}
    (hmimics : ∀ c, c.Mirrors s.1.disk (dir.join f.name) (f.pageSize s.2.dataPageSize) →
      Cache.Mimics (dir.join f.name) (f.pageSize s.2.dataPageSize) x y (s.1, c))
    (hgrows : Disk.Grows (Cache.IsIn f.name) s.1.disk (y.run s.1).2.disk) :
    Step.Agree (Twins dir) (Step.inside f.part x) (Step.inside f.part x) s t := by
  obtain ⟨hresult, hhost, hcounts, hfits⟩ := h.left.inside f (hmimics _ (h.left.mirrors f)) hgrows
  have hmirrors := h.right.mirrors f
  have hsize := congrArg f.pageSize h.counts.dataPageSize
  rw [← h.host, ← hsize] at hmirrors
  have hmimics' := hmimics _ hmirrors
  rw [h.host, hsize] at hmimics'
  rw [h.host] at hgrows hresult hhost
  obtain ⟨hresult', hhost', hcounts', hfits'⟩ := h.right.inside f hmimics' hgrows
  exact ⟨hresult.trans hresult'.symm, hhost.trans hhost'.symm,
    (hcounts.symm.trans h.counts).trans hcounts', hfits, hfits'⟩

theorem respects_withPage (f : Folder) (page : UInt64) {access : Page.Access α}
    (himpartial : Page.Impartial access) :
    Step.Respects (Twins dir) (Step.inside f.part (Cache.withPage page access)) := by
  intro s t h
  have hwf := h.left.wellFormed
  exact h.inside f
    (fun c hc => hc.withPage (f.pageSize_pos h.left.dataPageSize_pos) hwf himpartial page)
    ((Cache.grows_once hwf himpartial _ page _).mono fun _ hgone => hgone.elim)

theorem respects_deleteWhere (f : Folder) (asked : UInt64 → Bool) :
    Step.Respects (Twins dir) (Step.inside f.part (Cache.deleteWhere asked)) := by
  intro s t h
  have hwf := h.left.wellFormed
  have hname := f.partName.isName
  exact h.inside f
    (fun c hc => hc.deleteWhere hwf (Path.text_join_ne_empty dir hname)
      (Path.endsInSlash_join dir hname) asked)
    (Cache.grows_removeFound hname hwf asked)

end Inside

section Counts

theorem Fits.recount (h : Fits dir s) (head tail : UInt64) (cursor : Cursor) :
    Fits dir (s.1, { s.2 with head, tail, cursor }) where
  wellFormed := h.wellFormed
  dataPageSize_pos := h.dataPageSize_pos
  mirrors := Folder.forall_of (h.mirrors .index) (h.mirrors .data) (h.mirrors .ends)

-- Counters that are taken from the old ones, or from nowhere.
theorem respects_recount (head tail : Log → UInt64) (cursor : Log → Cursor)
    (hsame : ∀ {l l' : Log}, SameCounts l l' →
      head l = head l' ∧ tail l = tail l' ∧ cursor l = cursor l') :
    Step.Respects (Twins dir) (modify fun (host, l) =>
      (host, { l with head := head l, tail := tail l, cursor := cursor l })) := by
  refine Step.respects_modify fun s t h => ?_
  obtain ⟨hhead, htail, hcursor⟩ := hsame h.counts
  exact ⟨h.host, ⟨h.counts.dataPageSize, hhead, htail, hcursor⟩, h.left.recount _ _ _,
    h.right.recount _ _ _⟩

theorem respects_setCursor (cursor : Cursor) : Step.Respects (Twins dir) (setCursor cursor) :=
  respects_recount Log.head Log.tail (fun _ => cursor) fun h => ⟨h.head, h.tail, rfl⟩

end Counts

section Requests

theorem respects_readEntry (index : UInt64) : Step.Respects (Twins dir) (readEntry index) :=
  (respects_withPage .index _ (Page.impartial_read _ _)).map _

theorem respects_writeEntry (index : UInt64) (e : Entry) :
    Step.Respects (Twins dir) (writeEntry index e) :=
  respects_withPage .index _ (Page.impartial_write _ _)

theorem respects_publish (position : Nat) (value : UInt64) :
    Step.Respects (Twins dir) (publish position value) :=
  respects_withPage .ends _ (Page.impartial_setCounter _ _)

theorem respects_publishHead (value : UInt64) : Step.Respects (Twins dir) (publishHead value) :=
  (respects_publish _ _).bind fun _ =>
    respects_recount (fun _ => value) Log.tail Log.cursor fun h => ⟨rfl, h.tail, h.cursor⟩

theorem respects_publishTail (value : UInt64) : Step.Respects (Twins dir) (publishTail value) :=
  (respects_publish _ _).bind fun _ =>
    respects_recount Log.head (fun _ => value) Log.cursor fun h => ⟨h.head, rfl, h.cursor⟩

theorem impartial_window : Page.Impartial window :=
  Page.impartial_bind (Page.impartial_counter _) fun head =>
    Page.impartial_bind (Page.impartial_counter _) fun tail => Page.impartial_pure (head, tail)

theorem Twins.dataPages_eq (h : Twins dir s t) : s.2.dataPages s.1.disk = t.2.dataPages t.1.disk := by
  have hleft : s.2.data.dir = _ := (h.left.mirrors .data).dir_eq
  have hright : t.2.data.dir = _ := (h.right.mirrors .data).dir_eq
  unfold dataPages Cache.existingIndexes
  rw [h.host, hleft, hright]

theorem Twins.diskUsage_eq (h : Twins dir s t) : s.2.diskUsage s.1.disk = t.2.diskUsage t.1.disk := by
  have husage : ∀ f : Folder, (f.cache s.2).diskUsage s.1.disk = (f.cache t.2).diskUsage t.1.disk := by
    intro f
    unfold Cache.diskUsage
    rw [h.host, (h.left.mirrors f).dir_eq, (h.right.mirrors f).dir_eq]
  have hindex : s.2.index.diskUsage _ = _ := husage .index
  have hdata : s.2.data.diskUsage _ = _ := husage .data
  have hends : s.2.ends.diskUsage _ = _ := husage .ends
  unfold diskUsage
  rw [hindex, hdata, hends]
  rfl

theorem respects_look {read : Host × Log → Except Error α}
    (hread : ∀ s t, Twins dir s t → read s = read t) : Step.Respects (Twins dir) (look read) :=
  Step.respects_get_bind (fun s t h => by rw [hread s t h]) fun s => Step.respects_ofExcept (read s)

theorem respects_recoverCursor : Step.Respects (Twins dir) recoverCursor := by
  refine Step.respects_get_bind ?_ ?_
  · rintro ⟨host, l⟩ ⟨host', l'⟩ h
    have hpages : l.dataPages host.disk = l'.dataPages host'.disk := h.dataPages_eq
    have hhead : l.head = l'.head := h.counts.head
    have htail : l.tail = l'.tail := h.counts.tail
    simp only [hpages, hhead, htail]
  · rintro ⟨host, l⟩
    dsimp only
    split
    · refine (Step.respects_ofExcept _).bind fun pages => ?_
      split <;> exact Step.respects_pure _
    · exact (respects_readEntry _).map _

theorem respects_recover : Step.Respects (Twins dir) recover := by
  refine (respects_withPage .ends _ impartial_window).bind ?_
  rintro ⟨head, tail⟩
  refine (respects_recount (fun _ => head) (fun _ => tail) Log.cursor fun h => ?_).bind fun _ => ?_
  · exact ⟨rfl, rfl, h.cursor⟩
  · exact respects_recoverCursor.bind respects_setCursor

theorem respects_append (payload : Bytes) : Step.Respects (Twins dir) (Log.append payload) := by
  refine Step.respects_get_bind ?_ ?_
  · rintro ⟨host, l⟩ ⟨host', l'⟩ h
    obtain rfl : host = host' := h.host
    have hsize : l.dataPageSize = l'.dataPageSize := h.counts.dataPageSize
    have hhead : l.head = l'.head := h.counts.head
    have hcursor : l.cursor = l'.cursor := h.counts.cursor
    simp only [roll, hsize, hhead, hcursor]
  · rintro ⟨host, l⟩
    dsimp only
    split
    · exact Step.respects_throw_bind _ _
    · refine (respects_setCursor _).bind fun _ => ?_
      refine (respects_withPage .data _ (Page.impartial_write _ _)).bind fun _ => ?_
      refine (respects_writeEntry _ _).bind fun _ => ?_
      refine (respects_setCursor _).bind fun _ => ?_
      exact (respects_publishHead _).map _

private theorem respects_checked {rest : Action α} (index : UInt64) (hrest : Step.Respects (Twins dir) rest) :
    Step.Respects (Twins dir) (do
      let (_, l) ← get
      Step.ofExcept (l.checkIndex index)
      rest) := by
  refine Step.respects_get_bind ?_ ?_
  · rintro ⟨host, l⟩ ⟨host', l'⟩ h
    simp only [h.counts.checkIndex_eq index]
  · rintro ⟨host, l⟩
    exact (Step.respects_ofExcept _).bind fun _ => hrest

theorem respects_fetch (index : UInt64) : Step.Respects (Twins dir) (Log.fetch index) := by
  refine respects_checked index ((respects_readEntry index).bind fun e => ?_)
  refine (respects_withPage .data _ (Page.impartial_read _ _)).bind fun payload => ?_
  split
  · exact Step.respects_throw_bind _ _
  · exact Step.respects_pure _

theorem respects_timestampOf (index : UInt64) : Step.Respects (Twins dir) (Log.timestampOf index) :=
  respects_checked index ((respects_readEntry index).map _)

theorem respects_removeAll : Step.Respects (Twins dir) Log.removeAll :=
  (respects_deleteWhere .index _).bind fun _ => (respects_deleteWhere .data _).bind fun _ =>
    (respects_publish _ _).bind fun _ => (respects_publish _ _).bind fun _ =>
      respects_recount (fun _ => 0) (fun _ => 0) (fun _ => ⟨0, 0⟩) fun _ => ⟨rfl, rfl, rfl⟩

theorem respects_removeBefore (index : UInt64) :
    Step.Respects (Twins dir) (Log.removeBefore index) := by
  refine respects_checked index ((respects_readEntry index).bind fun e => ?_)
  refine (respects_deleteWhere .index _).bind fun _ => (respects_deleteWhere .data _).bind fun _ => ?_
  exact respects_publishTail index

theorem Fits.onCaches (h : Fits dir s) {change : Folder → Cache → Cache}
    (hchange : ∀ f {c : Cache} {d : Disk} {dir : Path} {size : Nat}, c.Mirrors d dir size →
      (change f c).Mirrors d dir size) : Fits dir (s.1, s.2.onCaches change) where
  wellFormed := h.wellFormed
  dataPageSize_pos := h.dataPageSize_pos
  mirrors f := by
    have hf := hchange f (h.mirrors f)
    cases f with
    | index => exact hf
    | data => exact hf
    | ends => exact hf

private theorem Fits.flushPart (h : Fits dir s) (f : Folder) :
    Step.Ends (Step.inside f.part Cache.flush) s (.ok ()) (Tends dir s) := by
  have hmimics : Cache.Mimics (dir.join f.name) (f.pageSize s.2.dataPageSize) Cache.flush (pure ())
      (s.1, f.cache s.2) :=
    ⟨Cache.sync_of_calm h.wellFormed.calm _, rfl, (h.mirrors f).flushed _⟩
  exact (h.inside f hmimics h.wellFormed.toNumbered.grows).mono fun t ht => ⟨ht.1, ht.2.1, ht.2.2⟩

theorem Fits.flush (h : Fits dir s) : Step.Ends Log.flush s (.ok ()) (Tends dir s) :=
  (h.flushPart .index).bind fun _ ht => (ht.fits.flushPart .data).bind fun _ hu =>
    (hu.fits.flushPart .ends).mono fun _ hv => (ht.trans hu).trans hv

theorem respects_flush : Step.Respects (Twins dir) Log.flush := by
  intro s t h
  have hleft := h.left.flush
  have hright := h.right.flush
  exact ⟨hleft.1.trans hright.1.symm, (hleft.2.host.trans h.host).trans hright.2.host.symm,
    (hleft.2.counts.symm.trans h.counts).trans hright.2.counts, hleft.2.fits, hright.2.fits⟩

theorem Fits.upkeep (h : Fits dir s) (u : Upkeep) : Tends dir s (u.perform.run s).2 := by
  cases u with
  | evict folder now =>
      refine ⟨rfl, ⟨rfl, rfl, rfl, rfl⟩, ?_⟩
      show Fits dir (s.1, s.2.onCaches fun f c => if f = folder then c.evictIdle now else c)
      refine h.onCaches fun f _ _ _ _ hmirrors => ?_
      split
      · exact hmirrors.evictIdle now
      · exact hmirrors
  | sweep now => exact ⟨rfl, ⟨rfl, rfl, rfl, rfl⟩, h.onCaches fun _ _ _ _ _ hmirrors => hmirrors.sweep now⟩
  | flush => exact h.flush.2

theorem respects_request (r : Request) : Step.Respects (Twins dir) r.perform := by
  cases r with
  | append payload => exact (respects_append payload).map _
  | fetch index => exact (respects_fetch index).map _
  | timestampOf index => exact (respects_timestampOf index).map _
  | removeAll => exact respects_removeAll.map _
  | removeBefore index => exact (respects_removeBefore index).map _
  | dataPages => exact (respects_look fun _ _ h => h.dataPages_eq).map _
  | diskUsage => exact (respects_look fun _ _ h => h.diskUsage_eq).map _
  | flush => exact respects_flush.map _

end Requests

theorem Twins.atTime (h : Twins dir s t) (now : Nat) :
    Twins dir (Log.atTime now s) (Log.atTime now t) where
  host := by rw [Log.atTime, Log.atTime, h.host]
  counts := h.counts
  left := ⟨h.left.wellFormed, h.left.dataPageSize_pos, h.left.mirrors⟩
  right := ⟨h.right.wellFormed, h.right.dataPageSize_pos, h.right.mirrors⟩

-- Upkeep of one of the two.
theorem Twins.upkeep (h : Twins dir s t) (u : Upkeep) : Twins dir (u.perform.run s).2 t := by
  have htends := h.left.upkeep u
  exact ⟨htends.host.trans h.host, htends.counts.symm.trans h.counts, htends.fits, h.right⟩

-- Two logs go on side by side, whether or not the first one looks after its caches.
theorem Twins.watch_eq (ms : List Moment) (h : Twins dir s t) :
    watch ms s = watch (ms.filter Moment.isRequest) t := by
  induction ms generalizing s t with
  | nil => rfl
  | cons m ms ih =>
      cases m with
      | request now r =>
          obtain ⟨hreply, htwins⟩ := respects_request r _ _ (h.atTime now)
          show watch (.request now r :: ms) s =
            watch (.request now r :: ms.filter Moment.isRequest) t
          rw [watch, watch]
          generalize r.perform.run (Log.atTime now s) = out,
            r.perform.run (Log.atTime now t) = out' at hreply htwins
          show (out.1, out.2.1) :: watch ms out.2 = (out'.1, out'.2.1) :: watch _ out'.2
          rw [hreply, htwins.host, ih htwins]
      | upkeep u => exact ih (h.upkeep u)

end

section Opening

variable {dir : Path}

-- A log whose caches were opened at the given times, before its counters are read.
def fresh (dir : Path) (dataPageSize : Nat) (policy : CachePolicy) (index data ends : Nat) : Log where
  dir
  dataPageSize
  index := Cache.blank (dir.join indexDir) Entry.pageSize policy index
  data := Cache.blank (dir.join dataDir) dataPageSize policy data
  ends := Cache.blank (dir.join endsDir) endsPageSize .pinned ends
  head := 0
  tail := 0
  cursor := ⟨0, 0⟩

theorem fits_fresh {host : Host} (hwf : host.disk.WellFormed) {dataPageSize : Nat}
    (hpos : 0 < dataPageSize) (policy : CachePolicy) (index data ends : Nat) :
    Fits dir (host, fresh dir dataPageSize policy index data ends) where
  wellFormed := hwf
  dataPageSize_pos := hpos
  mirrors f := by
    cases f <;> exact Cache.mirrors_blank _ _ _ _ _

theorem open_eq {dataPageSize : Nat} (hpos : 0 < dataPageSize) (hle : dataPageSize ≤ maxDataPageSize)
    (policy : CachePolicy) :
    Log.open dir dataPageSize policy = do
      let index ← Cache.settle policy (dir.join indexDir)
      let data ← Cache.settle policy (dir.join dataDir)
      let ends ← Cache.settle .pinned (dir.join endsDir)
      let ((), log) ← Step.beside (fresh dir dataPageSize policy index data ends) recover
      return log := by
  unfold Log.open
  rw [if_neg (by omega)]
  simp only [Cache.open_eq, bind_assoc, pure_bind, fresh]

def SameHost (host host' : Host) : Prop :=
  host = host' ∧ host.disk.WellFormed

private theorem respects_onDisk (path : Path) {f : Disk → Except Refusal α × Disk}
    (hf : ∀ d : Disk, d.WellFormed → (f d).2.WellFormed) :
    Step.Respects SameHost (Step.onDisk path f) := by
  rintro host _ ⟨rfl, hwf⟩
  refine ⟨rfl, rfl, ?_⟩
  have hwf' := hf host.disk hwf
  unfold Step.onDisk
  rw [Step.run_ofRun]
  generalize f host.disk = out at hwf'
  obtain ⟨r, d⟩ := out
  cases r <;> exact hwf'

theorem agree_settle (folder : Path) (policy policy' : CachePolicy) {host host' : Host}
    (h : SameHost host host') :
    Step.Agree SameHost (Cache.settle policy folder) (Cache.settle policy' folder) host host' := by
  have hmake := respects_onDisk folder (fun d hd => Disk.wellFormed_makeDirectories hd folder) host host' h
  refine hmake.bind fun _ u v huv => ?_
  obtain ⟨rfl, hwf⟩ := huv
  refine Step.agree_get_bind ?_
  simp only [Cache.startSweeper, Cache.askSweeper_of_calm hwf.calm]
  exact ⟨rfl, rfl, hwf⟩

-- The policy and the upkeep change neither what comes of opening and of each request, nor the files.
theorem caching_unseen (host : Host) (hwf : host.disk.WellFormed) (dir : Path) (dataPageSize : Nat)
    (policy : CachePolicy) (ms : List Moment) :
    (openAndWatch dir dataPageSize policy ms).run host =
      (openAndWatch dir dataPageSize .pinned (ms.filter Moment.isRequest)).run host := by
  suffices h : Step.Agree SameHost (openAndWatch dir dataPageSize policy ms)
      (openAndWatch dir dataPageSize .pinned (ms.filter Moment.isRequest)) host host from
    Prod.ext h.1 h.2.1
  unfold openAndWatch
  by_cases hsize : 0 < dataPageSize ∧ dataPageSize ≤ maxDataPageSize
  · -- The directories are made alike, and what is read of the counters is the same, so the logs are
    -- twins from then on.
    rw [open_eq hsize.1 hsize.2, open_eq hsize.1 hsize.2]
    simp only [bind_assoc, pure_bind]
    refine (agree_settle _ _ _ ⟨rfl, hwf⟩).bind fun index host₁ host₁' h₁ => ?_
    refine (agree_settle _ _ _ h₁).bind fun data host₂ host₂' h₂ => ?_
    refine (agree_settle _ _ _ h₂).bind fun ends host₃ host₃' h₃ => ?_
    obtain ⟨rfl, hwf₃⟩ := h₃
    have htwins : Twins dir (host₃, fresh dir dataPageSize policy index data ends)
        (host₃, fresh dir dataPageSize .pinned index data ends) :=
      ⟨rfl, ⟨rfl, rfl, rfl, rfl⟩, fits_fresh hwf₃ hsize.1 _ _ _ _, fits_fresh hwf₃ hsize.1 _ _ _ _⟩
    refine (respects_recover _ _ htwins).beside (fun s t h => ⟨h.host, h.left.wellFormed⟩) ?_
    intro _ s t h
    refine Step.agree_get_bind ⟨?_, h.host, h.left.wellFormed⟩
    exact congrArg Except.ok (h.watch_eq ms)
  · -- Neither policy is looked at before the page size is.
    unfold Log.open
    rw [if_pos (by omega), if_pos (by omega)]
    exact ⟨rfl, rfl, hwf⟩

-- Pages of four bytes, with idle pages dropped between any two requests and at once.
theorem caching_unseen_small_pages :
    (openAndWatch ⟨"spool"⟩ 4 (.evict ⟨0, 0, by decide⟩ ⟨0, 0, by decide⟩)
        [.request 1 (.append [1, 2, 3]), .upkeep (.evict .data 2), .upkeep (.evict .index 2),
          .request 3 (.append [4, 5]), .upkeep .flush, .upkeep (.sweep 4), .request 5 (.fetch 0),
          .upkeep (.evict .data 6), .request 7 (.removeBefore 1), .upkeep (.sweep 8),
          .request 9 (.fetch 1), .request 10 .removeAll, .upkeep (.evict .index 11),
          .request 12 .diskUsage]).run ⟨Disk.empty.addDirectory ["spool"], 0⟩ =
      (openAndWatch ⟨"spool"⟩ 4 .pinned
        [.request 1 (.append [1, 2, 3]), .request 3 (.append [4, 5]), .request 5 (.fetch 0),
          .request 7 (.removeBefore 1), .request 9 (.fetch 1), .request 10 .removeAll,
          .request 12 .diskUsage]).run ⟨Disk.empty.addDirectory ["spool"], 0⟩ :=
  caching_unseen _ (Disk.vacant_addDirectory (by decide : Disk.PartName "spool")).wellFormed _ _ _ _

end Opening

end Log

end Spool
