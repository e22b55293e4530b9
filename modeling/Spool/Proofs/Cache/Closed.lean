import Spool.Proofs.Cache.Transparent
import Spool.Proofs.Cache.Upkeep

namespace Spool.Cache

-- A cache as if nobody had closed it.
def reopened (c : Cache) : Cache :=
  { c with closed := false }

-- A closed cache has no pages.
structure Spent (c : Cache) : Prop where
  closed : c.closed = true
  resident : c.resident = ∅

-- A closed cache whose directory is there.
structure Shut (c : Cache) (d : Disk) (folder : Location) : Prop where
  sound : c.reopened.Sound d folder
  closed : c.closed = true
  resident : c.resident = ∅

-- What comes of a step of a closed cache: no more than another image of the directory.
structure Wipes (folder : Location) (host : Host) (c : Cache) (t : Host × Cache) (img : Image) : Prop where
  cache : t.2 = c
  leads : Leads folder (host, c.reopened) (t.1, c.reopened) img

section

variable {c : Cache} {d d' : Disk} {folder : Location} {host : Host}

theorem shut_eq (c : Cache) : ∃ pages, c.shut = { c with closed := true, pages, resident := ∅ } := by
  obtain ⟨pages, _, hpages⟩ := restocks_foldl
    (fun c (r : Resident) => restocks_modifyPage c r.page Page.unmap) c.resident.values
    { c with closed := true }
  refine ⟨pages, ?_⟩
  unfold shut emptied
  simp only [hpages]

theorem retired_of_open (hopen : c.closed = false) : c.retired = c.shut := by
  rw [retired, hopen]
  rfl

theorem spent_shut (c : Cache) : c.shut.Spent := by
  obtain ⟨pages, hshut⟩ := c.shut_eq
  rw [hshut]
  exact ⟨rfl, rfl⟩

theorem dir_retired (c : Cache) : c.retired.dir = c.dir := by
  obtain ⟨pages, hshut⟩ := c.shut_eq
  unfold retired
  split
  · rfl
  · rw [hshut]

theorem spent_retired (hopen : c.closed = false) : c.retired.Spent :=
  retired_of_open hopen ▸ c.spent_shut

theorem Sound.retired (h : c.Sound d folder) : c.retired.Shut d folder := by
  obtain ⟨pages, hshut⟩ := c.shut_eq
  rw [retired_of_open h.notClosed, hshut]
  exact ⟨⟨h.houses, h.pageSize_pos, h.pageSize_lt, rfl, fun hr => by simp [reopened] at hr⟩, rfl, rfl⟩

-- There is no page left that a change of the files could matter to.
theorem Shut.of_change {folders : List Location} (h : c.Shut d folder)
    (hframe : Disk.Frame folders d d') (hfolder : d'.Folder folder) : c.Shut d' folder where
  sound := {
    houses := h.sound.houses.of_change hframe hfolder
    pageSize_pos := h.sound.pageSize_pos
    pageSize_lt := h.sound.pageSize_lt
    notClosed := rfl
    resident := fun hr => by simp [reopened, h.resident] at hr }
  closed := h.closed
  resident := h.resident

theorem Shut.spent (h : c.Shut d folder) : c.Spent :=
  ⟨h.closed, h.resident⟩

theorem Spent.getElem?_resident (h : c.Spent) (index : UInt64) : c.resident[index]? = none := by
  rw [h.resident]
  exact Std.TreeMap.getElem?_emptyc

theorem Spent.retired_eq (h : c.Spent) : c.retired = c := by
  rw [retired, h.closed]
  rfl

-- There is nothing to flush.
theorem Spent.run_flush (h : c.Spent) (host : Host) : flush.run (host, c) = (.ok (), (host, c)) := by
  rw [Cache.run_flush, sync, flushed, h.resident]
  rfl

theorem Spent.sweep_eq (h : c.Spent) (now : Nat) : c.sweep now = c := by
  unfold Cache.sweep
  split
  · rfl
  · rw [h.closed]
    rfl

theorem Spent.withPage (h : c.Spent) (index : UInt64) (access : Page.Access α) :
    Step.Ends (withPage index access) (host, c) (.error (.cacheClosed c.dir)) (· = (host, c)) := by
  have hacquire : Step.Ends (acquire index) (host, c) (.error (.cacheClosed c.dir)) (· = (host, c)) := by
    unfold acquire retain?
    refine Step.ends_get_bind ?_
    simp only [h.getElem?_resident, h.closed, if_true]
    exact (Step.ends_throw rfl).bind_error
  unfold Cache.withPage
  exact hacquire.bind_error

-- Only the file is deleted.
theorem Spent.run_delete (h : c.Spent) (index : UInt64) (host : Host) :
    (delete index).run (host, c) =
      (((removeFile (c.pagePath index)).run host).1, (((removeFile (c.pagePath index)).run host).2, c)) := by
  have hnone := h.getElem?_resident index
  rw [Cache.run_delete]
  simp only [syncPage, uncache, hnone]

theorem Spent.keeps_deleteWhere (h : c.Spent) (asked : UInt64 → Bool) :
    Step.Keeps (fun t : Host × Cache => t.1.disk.WellFormed ∧ t.2 = c) (Cache.deleteWhere asked) := by
  refine Cache.keeps_deleteWhere (fun index => ?_) asked
  rintro ⟨host, _⟩ ⟨hwf, rfl⟩
  have hdisk : host.disk.WellFormed := hwf
  simp only [h.run_delete index host, and_true]
  exact wellFormed_removeFile hdisk _

section Delete

variable (h : c.Shut host.disk folder)

include h

-- Nobody asks whether the cache was closed.
private theorem Shut.delete (index : UInt64) :
    Step.Ends (Cache.delete index) (host, c) (.ok ()) fun t =>
      Wipes folder host c t ((host.disk.image folder).without fun page => page = index) := by
  have hnone := h.spent.getElem?_resident index
  have hfree := h.sound.houses.is_folder.not_barred index
  obtain ⟨host', hrun, hcarries⟩ := (h.sound.copes.removeFile hnone hfree).run_eq
  unfold Step.Ends
  rw [h.spent.run_delete index host, show (removeFile (c.pagePath index)).run host = _ from hrun]
  exact ⟨rfl, rfl, hcarries.leads h.sound⟩

private theorem Shut.forM_delete (pages : List UInt64) :
    Step.Ends (pages.forM Cache.delete) (host, c) (.ok ()) fun t =>
      Wipes folder host c t ((host.disk.image folder).without fun page => pages.contains page) := by
  refine ends_forM_without pages ?_ ⟨rfl, h.sound.stays.leads⟩
  rintro index - ⟨host', c'⟩ img ⟨hcache, hleads⟩
  obtain rfl : c' = c := hcache
  have hshut : c'.Shut host'.disk folder := ⟨hleads.sound, h.closed, h.resident⟩
  have hdelete := hshut.delete index
  rw [show host'.disk.image folder = img from hleads.image] at hdelete
  exact hdelete.mono fun u hu => ⟨hu.cache, hleads.trans hu.leads⟩

theorem Shut.deleteWhere (asked : UInt64 → Bool) :
    Step.Ends (Cache.deleteWhere asked) (host, c) (.ok ()) fun t =>
      Wipes folder host c t ((host.disk.image folder).without asked) := by
  obtain ⟨known, hknown, -, hsame⟩ := h.sound.copes.knownIndexes h.sound.houses.is_folder.paged asked
  unfold Step.Ends
  rw [run_deleteWhere (s := (host, c)) hknown, ← hsame]
  exact h.forM_delete _

end Delete

end

end Spool.Cache
