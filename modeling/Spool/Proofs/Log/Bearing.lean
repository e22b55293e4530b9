import Spool.Proofs.Log.Spent
import Spool.Proofs.Log.Sturdy

namespace Spool

-- The same disk, but for what the system refuses.
def Disk.refusing (d : Disk) (refuses : SystemCall → Path → Bool) : Disk :=
  { d with refuses }

namespace Log

-- The directories of a log hold what its books say, whatever else is in them.
structure Bears (dir : Path) (base : Location) (d : Disk) (b : Books) : Prop where
  ground : d.Ground dir base
  parts : ∀ f : Folder, d.node? (f.name :: base) = some .directory
  paged : ∀ f : Folder, d.Paged (f.name :: base)
  image : ∀ f : Folder, d.image (f.name :: base) = b.image f

-- What may happen to a disk behind the back of a log. Its directories stay, and so do the files in them with
-- what they hold; but the system may refuse other calls than before, and other directories may come and go
-- where page files would be made.
structure Shifts (dir : Path) (base : Location) (d d' : Disk) : Prop where
  numbered : d'.Numbered
  walk : d'.walk dir.steps = .ok base
  directory : d'.node? base = some .directory
  parts : ∀ f : Folder, d'.node? (f.name :: base) = some .directory
  files : ∀ (f : Folder) name id,
    d'.node? (name :: f.name :: base) = some (.file id) ↔ d.node? (name :: f.name :: base) = some (.file id)
  contents : ∀ (f : Folder) name id, d.node? (name :: f.name :: base) = some (.file id) →
    d'.content id = d.content id

section

variable {dir : Path} {base : Location} {d d' : Disk} {b b' : Books} {s t : Host × Log} {f : Folder}
  {page : UInt64}

theorem Bears.of_moves (h : Bears dir base s.1.disk b) (hmoves : Moves base s t b') :
    Bears dir base t.1.disk b' where
  ground := h.ground.of_frame hmoves.frame
  parts f := hmoves.frame.directories _ (h.parts f)
  paged f := hmoves.paged f (h.paged f)
  image := hmoves.faces.image

theorem Bears.of_image (h : Bears dir base d b) (himage : ∀ f : Folder, b'.image f = b.image f) :
    Bears dir base d b' :=
  ⟨h.ground, h.parts, h.paged, fun f => (h.image f).trans (himage f).symm⟩

-- Where a page file is, no directory is.
theorem Bears.not_barred (h : Bears dir base d b) (hpage : (b.image f page).isSome) :
    ¬d.Barred (f.name :: base) page := by
  obtain ⟨s, hs⟩ := Option.isSome_iff_exists.mp hpage
  rw [← h.image f] at hs
  obtain ⟨id, hnode, -⟩ := Disk.exists_file_of_image hs
  intro hbarred
  cases hnode.symm.trans hbarred

theorem Shifts.image_eq (h : Shifts dir base d d') (f : Folder) :
    d'.image (f.name :: base) = d.image (f.name :: base) := by
  funext page
  cases himage : d.image (f.name :: base) page with
  | some s =>
      obtain ⟨id, hnode, rfl⟩ := Disk.exists_file_of_image himage
      rw [Disk.image_eq_some ((h.files f _ id).mpr hnode), h.contents f _ id hnode]
  | none =>
      cases himage' : d'.image (f.name :: base) page with
      | none => rfl
      | some s =>
          obtain ⟨id, hnode, -⟩ := Disk.exists_file_of_image himage'
          rw [Disk.image_eq_some ((h.files f _ id).mp hnode)] at himage
          cases himage

theorem Bears.shift (h : Bears dir base d b) (hshifts : Shifts dir base d d') : Bears dir base d' b where
  ground := ⟨hshifts.numbered, hshifts.walk, hshifts.directory, h.ground.short, h.ground.noNul⟩
  parts := hshifts.parts
  paged f name id hid := h.paged f name id ((hshifts.files f name id).mp hid)
  image f := (hshifts.image_eq f).trans (h.image f)

-- An open log does not notice.
theorem Faces.shift (h : Faces base s b) (hbears : Bears dir base s.1.disk b)
    (hdirs : ∀ f : Folder, (f.cache s.2).dir = dir.join f.name) (hshifts : Shifts dir base s.1.disk d') :
    Faces base (⟨d', s.1.now⟩, s.2) b where
  dataPageSize := h.dataPageSize
  now := h.now
  head := h.head
  tail := h.tail
  cursor := h.cursor
  copes f := {
    shelf := hdirs f ▸ (hbears.shift hshifts).ground.shelf f.partName (hshifts.parts f)
    pageSize_pos := (h.copes f).pageSize_pos
    pageSize_lt := (h.copes f).pageSize_lt
    notClosed := (h.copes f).notClosed
    resident := fun hr => by
      obtain ⟨p, hp, hmaps⟩ := (h.copes f).resident hr
      refine ⟨p, hp, hmaps.index_eq, hmaps.size_eq, hmaps.isOpen, (hshifts.files f _ _).mpr hmaps.node, ?_⟩
      rw [hshifts.contents f _ _ hmaps.node]
      exact hmaps.covers }
  pageSize := h.pageSize
  image f := (hshifts.image_eq f).trans (h.image f)

theorem Bears.shifts_refusing (h : Bears dir base d b) (refuses : SystemCall → Path → Bool) :
    Shifts dir base d (d.refusing refuses) :=
  ⟨⟨h.ground.numbered.lt_nextFile, h.ground.numbered.unique⟩, h.ground.walk, h.ground.directory, h.parts,
    fun _ _ _ => Iff.rfl, fun _ _ _ _ => rfl⟩

-- The same files are made or extended, whatever else the books say.
theorem Books.Touched.exists_of_image {may : UInt64 → Prop} (h : b.Touched may b') {c : Books}
    (himage : ∀ f : Folder, c.image f = b.image f) :
    ∃ c', c.Touched may c' ∧ ∀ f : Folder, c'.image f = b'.image f := by
  induction h with
  | refl => exact ⟨c, .refl, himage⟩
  | @touch b'' _ f size page hmay ih =>
      obtain ⟨c', htouched, hsame⟩ := ih
      refine ⟨_, htouched.touch f size page hmay, fun g => ?_⟩
      rw [Books.touch, Books.touch, Books.image_setImage, Books.image_setImage, hsame f, hsame g]

end

-- What a log is granted that is opened on a disk.
def regrant (dir : Path) (base : Location) (dataPageSize : Nat) (d : Disk) (f : Folder) (page : UInt64) :
    Except Error Unit :=
  d.grant (dir.join f.name) (f.name :: base) page (f.pageSize dataPageSize)

def startSweepers (policy : CachePolicy) (dir : Path) (d : Disk) : Except Error Unit := do
  Cache.startSweeper policy (dir.join indexDir) d
  Cache.startSweeper policy (dir.join dataDir) d

-- Whether a log is opened: somebody has to look for idle pages, and the page of the ends of the window is
-- needed, and that of its last entry.
def permit (dir : Path) (base : Location) (dataPageSize : Nat) (policy : CachePolicy) (d : Disk) (b : Books) :
    Except Error Unit := do
  startSweepers policy dir d
  regrant dir base dataPageSize d .ends endsPage
  if b.head ≠ b.tail then
    regrant dir base dataPageSize d .index (Entry.pageOf (b.head - 1))

section

variable {dir : Path} {base : Location} {dataPageSize : Nat} {policy : CachePolicy} {d : Disk} {b : Books}

-- Everything that is asked for has to be granted.
theorem permit_eq_ok_iff : permit dir base dataPageSize policy d b = .ok () ↔
    startSweepers policy dir d = .ok () ∧ regrant dir base dataPageSize d .ends endsPage = .ok () ∧
      (b.head ≠ b.tail → regrant dir base dataPageSize d .index (Entry.pageOf (b.head - 1)) = .ok ()) := by
  unfold permit
  cases startSweepers policy dir d with
  | error e => exact iff_of_false (fun h => nomatch h) fun h => nomatch h.1
  | ok _ =>
      cases regrant dir base dataPageSize d .ends endsPage with
      | error e => exact iff_of_false (fun h => nomatch h) fun h => nomatch h.2.1
      | ok _ =>
          by_cases hdiff : b.head ≠ b.tail
          · simp [hdiff, bind, Except.bind]
          · exact iff_of_true (if_neg hdiff) ⟨rfl, rfl, fun h => absurd h hdiff⟩

-- The first thing that is refused is what is told.
private theorem permit_error {e : Error} (h : permit dir base dataPageSize policy d b = .error e) :
    startSweepers policy dir d = .error e ∨
      startSweepers policy dir d = .ok () ∧ regrant dir base dataPageSize d .ends endsPage = .error e ∨
      startSweepers policy dir d = .ok () ∧ regrant dir base dataPageSize d .ends endsPage = .ok () ∧
        b.head ≠ b.tail ∧ regrant dir base dataPageSize d .index (Entry.pageOf (b.head - 1)) = .error e := by
  unfold permit at h
  cases hsweepers : startSweepers policy dir d with
  | error _ =>
      rw [hsweepers] at h
      exact .inl h
  | ok _ =>
      rw [hsweepers] at h
      cases hends : regrant dir base dataPageSize d .ends endsPage with
      | error _ =>
          rw [hends] at h
          exact .inr (.inl ⟨rfl, h⟩)
      | ok _ =>
          rw [hends] at h
          by_cases hdiff : b.head ≠ b.tail
          · exact .inr (.inr ⟨rfl, rfl, hdiff, (if_pos hdiff).symm.trans h⟩)
          · cases (if_neg hdiff).symm.trans h

end

section

variable {dir : Path} {base : Location} {s : Host × Log} {b : Books} {e : Error}

private theorem Faces.recover_missed (h : Faces base s b) (hends : grant base s .ends endsPage = .error e) :
    ∃ b', Step.Ends Log.recover s (.error e) (fun t => Goes base s t b') ∧ b.Touched (fun _ => False) b' := by
  have hsame : b.Touched (fun _ => False) b := .refl
  obtain ⟨b', hwindow, htouched⟩ := h.goes.onPage_missed hsame .ends hends (fun h => nomatch h) window
  exact ⟨b', Step.Ends.bind_error hwindow, htouched⟩

private theorem Faces.recover_missed_last (h : Faces base s b) (hends : grant base s .ends endsPage = .ok ())
    (hdiff : b.takeUp.head ≠ b.takeUp.tail)
    (hlast : grant base s .index (Entry.pageOf (b.takeUp.head - 1)) = .error e) :
    ∃ b', Step.Ends Log.recover s (.error e) (fun t => Goes base s t b') ∧
      b.takeUp.Touched (fun _ => False) b' := by
  obtain ⟨t, hrun, ht⟩ := (h.onEnds_window hends).run_eq
  have hgoes : Goes base s _ b.takeUp := ht.trans (ht.faces.setWindow b.takeUp.head b.takeUp.tail)
  obtain ⟨b', hread, htouched⟩ := hgoes.faces.readEntry_missed (hgoes.granted hlast)
  refine ⟨b', ?_, htouched⟩
  unfold Log.recover
  refine Step.ends_bind_of_run hrun (Step.ends_bind_of_run (Step.run_modify _ t) (Step.Ends.bind_error ?_))
  unfold Log.recoverCursor
  refine Step.ends_get_bind ?_
  simp only [if_neg hdiff]
  refine Step.Ends.bind_error (hread.mono fun u hu => ?_)
  exact hgoes.trans hu

variable {host : Host} {dataPageSize : Nat} {policy : CachePolicy}

-- The caches come first, and what looks for their idle pages.
private theorem run_open_of_caches {c₁ c₂ c₃ : Cache}
    (hvalid : ¬(dataPageSize = 0 ∨ maxDataPageSize < dataPageSize))
    (hindex : (Cache.open (dir.join indexDir) Entry.pageSize policy).run host =
      ((Cache.startSweeper policy (dir.join indexDir) host.disk).map fun _ => c₁, host))
    (hdata : (Cache.open (dir.join dataDir) dataPageSize policy).run host =
      ((Cache.startSweeper policy (dir.join dataDir) host.disk).map fun _ => c₂, host))
    (hends : (Cache.open (dir.join endsDir) endsPageSize .pinned).run host = (.ok c₃, host)) :
    (Log.open dir dataPageSize policy).run host =
      match startSweepers policy dir host.disk with
      | .error e => (.error e, host)
      | .ok () => (do
        let ((), log) ← Step.beside (⟨dir, dataPageSize, c₁, c₂, c₃, 0, 0, ⟨0, 0⟩⟩ : Log) recover
        return log : Step Host Log).run host := by
  unfold Log.open startSweepers
  rw [if_neg hvalid, Step.run_bind, hindex]
  cases Cache.startSweeper policy (dir.join indexDir) host.disk with
  | error e => rfl
  | ok _ =>
      dsimp only [Except.map]
      rw [Step.run_bind, hdata]
      cases Cache.startSweeper policy (dir.join dataDir) host.disk with
      | error e => rfl
      | ok _ =>
          dsimp only [Except.map]
          exact Step.run_bind_of_run hends

variable (h : Bears dir base host.disk b) (hpos : 0 < dataPageSize)
  (hle : dataPageSize ≤ maxDataPageSize)

include h hpos hle

-- A log that is opened has nothing mapped yet when it looks for its window.
private theorem Bears.exists_fresh (policy : CachePolicy) :
    ∃ l : Log, Faces base (host, l) (.fresh dataPageSize host.now b.index b.data b.ends) ∧
      (∀ f : Folder, (f.cache l).dir = dir.join f.name) ∧
      grant base (host, l) = regrant dir base dataPageSize host.disk ∧
      (Log.open dir dataPageSize policy).run host =
        match startSweepers policy dir host.disk with
        | .error e => (.error e, host)
        | .ok () => (do
          let ((), log) ← Step.beside l recover
          return log : Step Host Log).run host := by
  have hsize : dataPageSize < Disk.maxFileSize := Nat.lt_of_le_of_lt hle (by decide)
  have hvalid : ¬(dataPageSize = 0 ∨ maxDataPageSize < dataPageSize) := by omega
  obtain ⟨c₁, hopen₁, hdir₁, hsize₁, hnone₁, hcopes₁⟩ := Cache.ends_open_self h.ground Folder.index.partName
    (h.parts .index) (by decide : 0 < Entry.pageSize) (by decide) policy
  obtain ⟨c₂, hopen₂, hdir₂, hsize₂, hnone₂, hcopes₂⟩ := Cache.ends_open_self h.ground Folder.data.partName
    (h.parts .data) hpos hsize policy
  obtain ⟨c₃, hopen₃, hdir₃, hsize₃, hnone₃, hcopes₃⟩ := Cache.ends_open_self h.ground Folder.ends.partName
    (h.parts .ends) (by decide : 0 < endsPageSize) (by decide) .pinned
  obtain ⟨_, hrun₁, rfl⟩ := hopen₁.run_eq
  obtain ⟨_, hrun₂, rfl⟩ := hopen₂.run_eq
  obtain ⟨host, hrun₃, rfl⟩ := hopen₃.run_eq
  let l : Log := ⟨dir, dataPageSize, c₁, c₂, c₃, 0, 0, ⟨0, 0⟩⟩
  have hgrant : ∀ (f : Folder) page, grant base (host, l) f page =
      regrant dir base dataPageSize host.disk f page :=
    Folder.forall_of (Cache.grant_of_nothing hnone₁ hdir₁ hsize₁) (Cache.grant_of_nothing hnone₂ hdir₂ hsize₂)
      (Cache.grant_of_nothing hnone₃ hdir₃ hsize₃)
  exact ⟨l, ⟨rfl, rfl, rfl, rfl, rfl, Folder.forall_of hcopes₁ hcopes₂ hcopes₃,
      Folder.forall_of hsize₁ hsize₂ hsize₃, Folder.forall_of (h.image .index) (h.image .data) (h.image .ends)⟩,
    Folder.forall_of hdir₁ hdir₂ hdir₃, funext fun f => funext (hgrant f),
    run_open_of_caches hvalid hrun₁ hrun₂ hrun₃⟩

variable (hhead : b.ends.word endsPage headPosition = b.head) (htail : b.ends.word endsPage tailPosition = b.tail)

include hhead htail

-- A log that is opened finds what the books say.
theorem Bears.ends_open (hpermit : permit dir base dataPageSize policy host.disk b = .ok ()) :
    ∃ l b', Step.Ends (Log.open dir dataPageSize policy) host (.ok l) (fun host' =>
        Faces base (host', l) b' ∧ Bears dir base host'.disk b' ∧
          (∀ f : Folder, (f.cache l).dir = dir.join f.name) ∧
          grant base (host', l) = regrant dir base dataPageSize host.disk) ∧
      (b.refound dataPageSize host.now).Resumed b' := by
  obtain ⟨l₀, hfaces, hdirs, hgrant, hrun⟩ := h.exists_fresh hpos hle policy
  obtain ⟨hsweepers, hends, hlast⟩ := permit_eq_ok_iff.mp hpermit
  rw [← hgrant] at hends hlast
  obtain ⟨b', hrecover, hresumed⟩ := hfaces.recover hends (h.paged .data) fun hdiff => by
    have hdiff : b.head ≠ b.tail := hhead ▸ htail ▸ hdiff
    have hword : (Books.fresh dataPageSize host.now b.index b.data b.ends).takeUp.head = b.head := hhead
    rw [hword]
    exact hlast hdiff
  obtain ⟨l, hbeside⟩ := hrecover.beside
  rw [hsweepers] at hrun
  refine ⟨l, b', .of_run_eq hrun ?_, hresumed⟩
  refine hbeside.bind fun host' hgoes => Step.ends_pure ?_
  refine ⟨hgoes.faces, h.of_moves hgoes.toMoves, fun f => (hgoes.dir f).trans (hdirs f), ?_⟩
  rw [← hgrant]
  exact funext fun f => funext fun page => hgoes.grant f page

-- If it is not opened, no more has happened than that a page was missed.
theorem Bears.ends_open_error {e : Error} (hpermit : permit dir base dataPageSize policy host.disk b = .error e) :
    ∃ b', Step.Ends (Log.open dir dataPageSize policy) host (.error e) (fun host' => Bears dir base host'.disk b') ∧
      b.Touched (fun _ => False) b' := by
  obtain ⟨l₀, hfaces, -, hgrant, hrun⟩ := h.exists_fresh hpos hle policy
  have hwords : (Books.fresh dataPageSize host.now b.index b.data b.ends).takeUp.head = b.head := hhead
  have hwords' : (Books.fresh dataPageSize host.now b.index b.data b.ends).takeUp.tail = b.tail := htail
  have himage : ∀ f : Folder, b.image f = (Books.fresh dataPageSize host.now b.index b.data b.ends).image f :=
    fun f => by cases f <;> rfl
  have himage' : ∀ f : Folder, (b.touch .ends endsPageSize endsPage).image f =
      (Books.fresh dataPageSize host.now b.index b.data b.ends).takeUp.image f := fun f => by cases f <;> rfl
  generalize Books.fresh dataPageSize host.now b.index b.data b.ends = b₀ at hfaces hwords hwords' himage himage'
  rcases permit_error hpermit with hsweepers | ⟨hsweepers, hends⟩ | ⟨hsweepers, hends, hdiff, hlast⟩
  · rw [hsweepers] at hrun
    exact ⟨b, ⟨congrArg Prod.fst hrun, congrArg Prod.snd hrun ▸ h⟩, .refl⟩
  · rw [← hgrant] at hends
    rw [hsweepers] at hrun
    obtain ⟨b', hrecover, htouched⟩ := hfaces.recover_missed hends
    obtain ⟨c, hc, hsame⟩ := htouched.exists_of_image himage
    refine ⟨c, .of_run_eq hrun (Step.Ends.bind_error (hrecover.beside_error.mono ?_)), hc⟩
    rintro host' ⟨l', hgoes⟩
    exact (h.of_moves hgoes.toMoves).of_image hsame
  · rw [← hgrant, ← hwords] at hlast
    rw [← hgrant] at hends
    rw [← hwords, ← hwords'] at hdiff
    rw [hsweepers] at hrun
    obtain ⟨b', hrecover, htouched⟩ := hfaces.recover_missed_last hends hdiff hlast
    obtain ⟨c, hc, hsame⟩ := htouched.exists_of_image himage'
    have htouch : b.Touched (fun _ => False) (b.touch .ends endsPageSize endsPage) :=
      Books.Touched.refl.touch .ends endsPageSize endsPage fun h => nomatch h
    refine ⟨c, .of_run_eq hrun (Step.Ends.bind_error (hrecover.beside_error.mono ?_)), htouch.trans hc⟩
    rintro host' ⟨l', hgoes⟩
    exact (h.of_moves hgoes.toMoves).of_image hsame

end

end Log

end Spool
