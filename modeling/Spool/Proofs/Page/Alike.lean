import Spool.Page.Basic
import Spool.Page.File
import Spool.Proofs.Disk.Growth
import Spool.Proofs.Step.Ends

namespace Spool.Page

-- Two pages of the same stretch of the same file, whoever holds them.
structure Alike (p q : Page) : Prop where
  index : q.index = p.index
  size : q.size = p.size
  file : q.file = p.file
  isOpen : q.isOpen = p.isOpen

theorem Alike.refl (p : Page) : p.Alike p :=
  ⟨rfl, rfl, rfl, rfl⟩

theorem Alike.symm {p q : Page} (h : p.Alike q) : q.Alike p :=
  ⟨h.index.symm, h.size.symm, h.file.symm, h.isOpen.symm⟩

theorem Alike.trans {p q r : Page} (h : p.Alike q) (h' : q.Alike r) : p.Alike r :=
  ⟨h'.index.trans h.index, h'.size.trans h.size, h'.file.trans h.file, h'.isOpen.trans h.isOpen⟩

theorem alike_retain (p : Page) : p.Alike p.retain :=
  ⟨rfl, rfl, rfl, rfl⟩

theorem alike_release (p : Page) : p.Alike p.release :=
  ⟨rfl, rfl, rfl, rfl⟩

theorem alike_flush (p : Page) (d : Disk) : p.Alike (p.flush d).2 := by
  unfold flush
  split
  · split
    · exact ⟨rfl, rfl, rfl, rfl⟩
    · exact .refl p
  · exact .refl p

theorem sync_of_calm {d : Disk} (h : d.Calm) (p : Page) : p.sync d = .ok () := by
  unfold sync
  rw [h]
  simp

-- An access to either of two pages: the same is refused, or the same is done to the disk, no file of
-- which is lost or cut.
inductive Matches (p q : Page) (d : Disk) :
    Except Error (α × Page × Disk) → Except Error (α × Page × Disk) → Prop
  | error (e : Error) : Matches p q d (.error e) (.error e)
  | ok {p' q' : Page} {d' : Disk} (a : α) (hp : p.Alike p') (hq : q.Alike q')
      (hgrows : Disk.Grows (fun _ => False) d d') :
    Matches p q d (.ok (a, p', d')) (.ok (a, q', d'))

def Impartial (access : Access α) : Prop :=
  ∀ {p q : Page} {d : Disk}, p.Alike q → d.Numbered → Matches p q d (access p d) (access q d)

section

variable {p q : Page} {d d' : Disk} {position length : Nat}

theorem Alike.checkBounds_eq (h : p.Alike q) (position length : Nat) :
    q.checkBounds position length = p.checkBounds position length := by
  unfold checkBounds
  rw [h.index, h.size]

theorem Alike.checkOpen_eq (h : p.Alike q) : q.checkOpen = p.checkOpen := by
  unfold checkOpen
  rw [h.index, h.isOpen]

theorem Alike.checkCounter_eq (h : p.Alike q) (position : Nat) :
    q.checkCounter position = p.checkCounter position := by
  unfold checkCounter
  rw [h.checkBounds_eq, h.checkOpen_eq]

-- What is checked first refuses both.
private theorem matches_check {check : Except Error Unit}
    {x y : Unit → Except Error (α × Page × Disk)} (h : Matches p q d (x ()) (y ())) :
    Matches p q d (check >>= x) (check >>= y) := by
  cases check with
  | error e => exact .error e
  | ok u => exact h

private theorem matches_store (h : p.Alike q) (hnumbered : d.Numbered) (a : α) (position : Nat)
    (data : Bytes) : Matches p q d (.ok (a, p.store d position data)) (.ok (a, q.store d position data)) := by
  unfold store content
  rw [h.file]
  exact .ok a ⟨rfl, rfl, rfl, rfl⟩ ⟨rfl, rfl, h.file.symm, rfl⟩ (Disk.grows_setContent hnumbered (Nat.le_refl _))

theorem impartial_read (position length : Nat) : Impartial (read position length) := by
  intro p q d h hnumbered
  unfold read
  rw [h.checkBounds_eq, h.checkOpen_eq]
  refine matches_check (matches_check (matches_check ?_))
  unfold content
  rw [h.file]
  exact .ok _ (.refl p) (.refl q) hnumbered.grows

theorem impartial_write (position : Nat) (data : Bytes) : Impartial (write position data) := by
  intro p q d h hnumbered
  unfold write
  rw [h.checkBounds_eq, h.checkOpen_eq]
  exact matches_check (matches_check (matches_store h hnumbered () position data))

theorem impartial_counter (position : Nat) : Impartial (counter position) := by
  intro p q d h hnumbered
  unfold counter loadWord content
  rw [h.checkCounter_eq, h.file]
  exact matches_check (.ok _ (.refl p) (.refl q) hnumbered.grows)

theorem impartial_setCounter (position : Nat) (value : UInt64) :
    Impartial (setCounter position value) := by
  intro p q d h hnumbered
  unfold setCounter storeWord
  rw [h.checkCounter_eq]
  exact matches_check (matches_store h hnumbered () position _)

theorem impartial_pure (a : α) : Impartial fun p d => .ok (a, p, d) :=
  fun _ hnumbered => .ok a (.refl _) (.refl _) hnumbered.grows

-- Two accesses in a row, the second of which depends on what the first one gave.
theorem impartial_bind {access : Access α} {rest : α → Access β} (h : Impartial access)
    (hrest : ∀ a, Impartial (rest a)) :
    Impartial (fun p d => do let (a, p, d) ← access p d; rest a p d) := by
  intro p q d halike hnumbered
  have hfirst := h halike hnumbered
  show Matches p q d (access p d >>= fun r => rest r.1 r.2.1 r.2.2)
    (access q d >>= fun r => rest r.1 r.2.1 r.2.2)
  generalize access p d = result, access q d = result' at hfirst
  cases hfirst with
  | error e => exact .error e
  | @ok p' q' d' a hp hq hgrows =>
      have hsecond := hrest a ((hp.symm.trans halike).trans hq) hgrows.numbered
      show Matches p q d (rest a p' d') (rest a q' d')
      generalize rest a p' d' = result, rest a q' d' = result' at hsecond
      cases hsecond with
      | error e => exact .error e
      | ok b hp' hq' hgrows' => exact .ok b (hp.trans hp') (hq.trans hq') (hgrows.trans hgrows')

end

-- An open page on the file that is found by a path, which is long enough for it.
structure Views (p : Page) (d : Disk) (path : Path) (index : UInt64) (size : Nat) : Prop where
  index_eq : p.index = index
  size_eq : p.size = size
  isOpen : p.isOpen = true
  file : d.lookup path = .ok (.file p.file)
  covers : size ≤ (d.content p.file).size

section

variable {p q : Page} {d d' : Disk} {path : Path} {index : UInt64} {size : Nat} {host host' : Host}
  {gone : Location → Prop}

theorem Views.of_alike (h : p.Views d path index size) (halike : p.Alike q) :
    q.Views d path index size where
  index_eq := halike.index.trans h.index_eq
  size_eq := halike.size.trans h.size_eq
  isOpen := halike.isOpen.trans h.isOpen
  file := halike.file.symm ▸ h.file
  covers := halike.file.symm ▸ h.covers

theorem Views.of_grows (h : p.Views d path index size) (hgrows : Disk.Grows gone d d')
    (hgone : ∀ l, d.locate path = .ok l → ¬gone l) : p.Views d' path index size := by
  obtain ⟨hfile, hle⟩ := hgrows.lookup hgone h.file
  exact ⟨h.index_eq, h.size_eq, h.isOpen, hfile, Nat.le_trans h.covers hle⟩

-- The page that comes of mapping a file.
def fresh (path : Path) (index : UInt64) (size : Nat) (file : FileId) : Page where
  path
  index
  size
  file
  isOpen := true
  dirty := false
  holders := 0

-- What comes of mapping a file: it is opened, made long enough and mapped.
theorem run_map (path : Path) (index : UInt64) (size : Nat) (host : Host) :
    (map path index size).run host =
      match host.disk.openPage path with
      | (.error e, d) => (.error (.io path e.reason), { host with disk := d })
      | (.ok id, d) =>
        match d.fitPage path id size with
        | (.error e, d) => (.error (.io path e.reason), { host with disk := d })
        | (.ok (), d) =>
          if d.refuses .mapFile path ∨ (d.content id).size = 0 then
            (.error (.mapping path), { host with disk := d })
          else (.ok (fresh path index size id), { host with disk := d }) := by
  unfold map
  rw [Step.run_bind, Step.run_onDisk]
  rcases host.disk.openPage path with ⟨e | id, d⟩
  · rfl
  simp only
  rw [Step.run_bind, Step.run_onDisk]
  rcases d.fitPage path id size with ⟨e | u, d'⟩
  · rfl
  simp only
  rw [Step.run_bind_of_run (Step.run_get _)]
  by_cases hrefused : d'.refuses .mapFile path ∨ (d'.content id).size = 0
  · simp only [if_pos hrefused]
    rfl
  · simp only [if_neg hrefused]
    rfl

-- A page that is there already is found again, and the disk is as it was.
theorem Views.ends_map (h : p.Views host.disk path index size) (hcalm : host.disk.Calm) (hpos : 0 < size) :
    Step.Ends (map path index size) host (.ok (fresh path index size p.file)) (· = host) := by
  obtain ⟨place, hlocate, hnode⟩ := Disk.lookup_eq_file_iff.mp h.file
  have hcovers := h.covers
  have hopen : host.disk.openPage path = (.ok p.file, host.disk) := by
    rw [Disk.openPage_of_calm hcalm, Disk.openFile_of_file hlocate hnode]
  have hfit : host.disk.fitPage path p.file size = (.ok (), host.disk) := by
    rw [Disk.fitPage_of_calm hcalm, Disk.growFile, if_pos hcovers]
  have hmap : ¬(host.disk.refuses .mapFile path ∨ (host.disk.content p.file).size = 0) := by
    rw [hcalm, Bool.false_eq_true, false_or]
    omega
  unfold Step.Ends
  simp only [run_map, hopen, hfit, if_neg hmap, and_self]

theorem Views.alike_fresh (h : p.Views d path index size) : p.Alike (fresh path index size p.file) :=
  ⟨h.index_eq.symm, h.size_eq.symm, rfl, h.isOpen.symm⟩

-- Mapping a path takes no file away, and gives a page of the file that is found by it unless it fails.
theorem ends_map_any (hnumbered : host.disk.Numbered) (path : Path) (index : UInt64) (size : Nat) :
    ∃ r, Step.Ends (map path index size) host r fun host' =>
      Disk.Grows (fun _ => False) host.disk host'.disk ∧ host'.now = host.now ∧
        ∀ p, r = .ok p → p.Views host'.disk path index size := by
  have hgrows : Disk.Grows (fun _ => False) host.disk (host.disk.openPage path).2 :=
    Disk.grows_openPage hnumbered path
  unfold Step.Ends
  rw [run_map]
  cases hopen : host.disk.openPage path with | mk r d
  rw [hopen] at hgrows
  cases r with
  | error e => exact ⟨_, rfl, hgrows, rfl, fun _ hp => by cases hp⟩
  | ok id =>
      have hgrows' : Disk.Grows (fun _ => False) d (d.fitPage path id size).2 :=
        Disk.grows_fitPage hgrows.numbered path id size
      have hfile := Disk.lookup_openFile (Disk.openFile_of_openPage hopen)
      cases hfit : d.fitPage path id size with | mk r' d'
      rw [hfit] at hgrows'
      have hboth := hgrows.trans hgrows'
      dsimp only
      rw [hfit]
      cases r' with
      | error e => exact ⟨_, rfl, hboth, rfl, fun _ hp => by cases hp⟩
      | ok u =>
          dsimp only
          split
          · exact ⟨_, rfl, hboth, rfl, fun _ hp => by cases hp⟩
          · refine ⟨_, rfl, hboth, rfl, fun p hp => ?_⟩
            cases hp
            have hfile' := (hgrows'.lookup (fun _ _ hgone => hgone) hfile).1
            exact ⟨rfl, rfl, rfl, hfile', Disk.size_fitPage hfit⟩

end

end Spool.Page
