import Spool.Proofs.Page.Mapping

namespace Spool

namespace Disk

instance (d : Disk) (folder : Location) (page : UInt64) : Decidable (d.Barred folder page) :=
  inferInstanceAs (Decidable (_ = _))

-- What comes of mapping the page of a number that is not mapped yet. A page that is long enough needs no
-- growing, so it does not matter to it whether that would be refused.
def grant (d : Disk) (dir : Path) (folder : Location) (page : UInt64) (size : Nat) : Except Error Unit :=
  let path := PageFile.path dir page
  if d.refuses .openFile path then .error (.io path Refusal.systemError.reason)
  else if d.Barred folder page then .error (.io path Refusal.isDirectory.reason)
  else if d.refuses .fileSize path ∨ d.refuses .setSize path ∧ ((d.image folder).sheet page).size < size then
    .error (.io path Refusal.systemError.reason)
  else if d.refuses .mapFile path then .error (.mapping path)
  else .ok ()

-- What becomes of the page files of a directory as pages of it are mapped and used, or fail to be: none is
-- lost or cut, no directory comes or goes, and the same is granted afterwards.
structure Uses (dir : Path) (place : Location) (d d' : Disk) : Prop extends
    Extends place d d', Refills place d d' where
  grant : ∀ page size, d'.grant dir place page size = d.grant dir place page size

section

variable {d d' d'' : Disk} {dir : Path} {folder : Location} {page : UInt64} {size : Nat} {file : FileId} {s : Sheet}

theorem grant_of_calm (hcalm : d.Calm) (hfree : ¬d.Barred folder page) (dir : Path) (size : Nat) :
    d.grant dir folder page size = .ok () := by
  simp only [grant, hcalm _ _, if_neg hfree, Bool.false_eq_true, false_and, or_self, if_false]

theorem Uses.refl (dir : Path) (folder : Location) (d : Disk) : Uses dir folder d d :=
  ⟨.refl folder d, (Refills.refl folder d).noneNew, (Refills.refl folder d).paged, fun _ _ => rfl⟩

theorem Uses.trans (h : Uses dir folder d d') (h' : Uses dir folder d' d'') : Uses dir folder d d'' where
  toExtends := h.toExtends.trans h'.toExtends
  noneNew := (h.toRefills.trans h'.toRefills).noneNew
  paged := (h.toRefills.trans h'.toRefills).paged
  grant page size := (h'.grant page size).trans (h.grant page size)

-- What is granted depends on what is refused, on the directories and on the sizes of files that may not grow.
theorem grant_congr (hrefuses : d'.refuses = d.refuses) (hbarred : d'.Barred folder page ↔ d.Barred folder page)
    (hsize : d.refuses .setSize (PageFile.path dir page) = true →
      ((d'.image folder).sheet page).size = ((d.image folder).sheet page).size) :
    d'.grant dir folder page size = d.grant dir folder page size := by
  have hshort : d.refuses .setSize (PageFile.path dir page) ∧ ((d'.image folder).sheet page).size < size ↔
      d.refuses .setSize (PageFile.path dir page) ∧ ((d.image folder).sheet page).size < size :=
    and_congr_right fun hset => by rw [hsize hset]
  simp only [grant, hrefuses, hbarred, hshort]

-- What happens elsewhere does not matter to what is granted in a directory.
theorem Frame.grant_eq {folders : List Location} (h : Frame folders d d') (hplace : folder ∉ folders)
    (dir : Path) (page : UInt64) (size : Nat) : d'.grant dir folder page size = d.grant dir folder page size :=
  grant_congr h.refuses (by rw [Barred, Barred, h.nodes _ _ hplace]) fun _ => by rw [h.image_eq hplace]

-- One page has another sheet, of the same size unless it may be made longer.
theorem uses_of_set (hextends : Extends folder d d') (hrefills : Refills folder d d')
    (himage : d'.image folder = (d.image folder).set page s)
    (hsize : d.refuses .setSize (PageFile.path dir page) = true → s.size = ((d.image folder).sheet page).size) :
    Uses dir folder d d' := by
  refine ⟨hextends, hrefills.noneNew, hrefills.paged, fun other size => ?_⟩
  refine grant_congr hextends.refuses (hrefills.barred_iff folder other) fun hset => ?_
  rw [himage, Image.sheet_set]
  split
  · next hother =>
    rw [hother] at hset ⊢
    exact hsize hset
  · rfl

-- A page that is granted can be opened, measured, made longer if it has to be, and mapped.
private theorem grant_eq_ok_iff : d.grant dir folder page size = .ok () ↔
    d.refuses .openFile (PageFile.path dir page) = false ∧ ¬d.Barred folder page ∧
      d.refuses .fileSize (PageFile.path dir page) = false ∧
      (d.refuses .setSize (PageFile.path dir page) = true → size ≤ ((d.image folder).sheet page).size) ∧
      d.refuses .mapFile (PageFile.path dir page) = false := by
  unfold grant
  grind

private theorem Shelf.openPage (h : d.Shelf dir folder)
    (hopen : d.refuses .openFile (PageFile.path dir page) = false) (hfree : ¬d.Barred folder page) :
    ∃ id d', d.openPage (PageFile.path dir page) = (.ok id, d') ∧ Uses dir folder d d' ∧
      d'.node? (PageFile.name page :: folder) = some (.file id) ∧
      d'.image folder = (d.image folder).touch 0 page := by
  obtain ⟨id, d', hopened, hextends, hrefills, hnode, himage⟩ := h.openFile hfree
  refine ⟨id, d', ?_, uses_of_set hextends hrefills himage fun _ => rfl, hnode,
    himage.trans ((d.image folder).touch_zero page).symm⟩
  rw [Disk.openPage, hopen, if_neg Bool.false_ne_true]
  exact hopened

private theorem Shelf.openPage_barred (h : d.Shelf dir folder)
    (hopen : ¬d.refuses .openFile (PageFile.path dir page) = true) (hbarred : d.Barred folder page) :
    d.openPage (PageFile.path dir page) = (.error .isDirectory, d) := by
  unfold Disk.openPage Disk.openFile
  simp only [if_neg hopen, h.locate_page page, show d.node? _ = _ from hbarred]

private theorem fitPage_page (hnumbered : d.Numbered)
    (hnode : d.node? (PageFile.name page :: folder) = some (.file file))
    (hfile : d.refuses .fileSize (PageFile.path dir page) = false)
    (hset : d.refuses .setSize (PageFile.path dir page) = true → size ≤ ((d.image folder).sheet page).size)
    (hsize : size < maxFileSize) :
    ∃ d', d.fitPage (PageFile.path dir page) file size = (.ok (), d') ∧ Uses dir folder d d' ∧
      size ≤ (d'.content file).size ∧ d'.image folder = (d.image folder).touch size page := by
  obtain ⟨d', hgrow, hextends, hrefills, hcovers, himage⟩ := growFile_page hnumbered hnode hsize
  have hsheet : ((d.image folder).sheet page).size = (d.content file).size := by
    rw [Image.sheet, image_eq_some hnode]
    rfl
  refine ⟨d', ?_, uses_of_set hextends hrefills himage fun h => ?_, hcovers, himage⟩
  · rw [← hgrow]
    unfold fitPage growFile
    by_cases hlong : size ≤ (d.content file).size
    · simp only [hfile, if_pos hlong, Bool.false_eq_true, if_false]
    · have hgranted : ¬d.refuses .setSize (PageFile.path dir page) = true := fun h => hlong (hsheet ▸ hset h)
      simp only [hfile, if_neg hlong, if_neg hgranted, Bool.false_eq_true, if_false]
  · exact Nat.max_eq_left (hset h)

private theorem fitPage_refused (hnode : d.node? (PageFile.name page :: folder) = some (.file file))
    (hrefused : d.refuses .fileSize (PageFile.path dir page) ∨
      d.refuses .setSize (PageFile.path dir page) ∧ ((d.image folder).sheet page).size < size) :
    d.fitPage (PageFile.path dir page) file size = (.error .systemError, d) := by
  have hsheet : ((d.image folder).sheet page).size = (d.content file).size := by
    rw [Image.sheet, image_eq_some hnode]
    rfl
  unfold fitPage
  rcases hrefused with hfile | ⟨hset, hshort⟩
  · rw [if_pos hfile]
  · rw [hsheet] at hshort
    rw [if_neg (Nat.not_le_of_lt hshort), if_pos hset, ite_self]

end

end Disk

namespace Page

section

variable {host : Host} {dir : Path} {folder : Location} {index : UInt64} {size : Nat}
  (h : host.disk.Shelf dir folder)

include h

theorem ends_map (hgrant : host.disk.grant dir folder index size = .ok ()) (hpos : 0 < size)
    (hsize : size < Disk.maxFileSize) :
    ∃ p, Step.Ends (map (PageFile.path dir index) index size) host (.ok p) fun host' =>
      host'.now = host.now ∧ Disk.Uses dir folder host.disk host'.disk ∧
      host'.disk.image folder = (host.disk.image folder).touch size index ∧
      p.Maps host'.disk folder index size := by
  obtain ⟨hopen, hfree, hfile, hset, hmap⟩ := Disk.grant_eq_ok_iff.mp hgrant
  obtain ⟨id, d, hopened, huses, hnode, himage⟩ := h.openPage hopen hfree
  have hset' : d.refuses .setSize (PageFile.path dir index) = true →
      size ≤ ((d.image folder).sheet index).size := by
    rw [huses.refuses, himage, Image.sheet_touch_zero]
    exact hset
  obtain ⟨d', hfit, huses', hcovers, himage'⟩ := Disk.fitPage_page (h.of_frame huses.toFrame).numbered hnode
    (huses.refuses ▸ hfile) hset' hsize
  have hboth := huses.trans huses'
  have hmapped : ¬(d'.refuses .mapFile (PageFile.path dir index) ∨ (d'.content id).size = 0) := by
    rw [hboth.refuses, hmap, Bool.false_eq_true, false_or]
    omega
  refine ⟨fresh (PageFile.path dir index) index size id, ?_⟩
  unfold Step.Ends
  simp only [run_map, hopened, hfit, if_neg hmapped]
  refine ⟨trivial, trivial, hboth, ?_, rfl, rfl, rfl, (huses'.files _ _ hnode).1, hcovers⟩
  rw [himage', himage, Image.touch_touch_zero]

-- A page that is not granted is missed, but its file may have been made or extended before.
theorem ends_map_refused {e : Error} (hgrant : host.disk.grant dir folder index size = .error e)
    (hsize : size < Disk.maxFileSize) :
    ∃ img, Step.Ends (map (PageFile.path dir index) index size) host (.error e) (fun host' =>
        host'.now = host.now ∧ Disk.Uses dir folder host.disk host'.disk ∧ host'.disk.image folder = img) ∧
      (host.disk.image folder).Missed index img := by
  unfold Step.Ends
  unfold Disk.grant at hgrant
  by_cases hopen : host.disk.refuses .openFile (PageFile.path dir index)
  · have hopened : host.disk.openPage (PageFile.path dir index) = (.error .systemError, host.disk) := if_pos hopen
    simp only [if_pos hopen] at hgrant
    cases hgrant
    refine ⟨_, ?_, .inl rfl⟩
    simp only [run_map, hopened]
    exact ⟨trivial, trivial, .refl _ _ _, trivial⟩
  by_cases hbarred : host.disk.Barred folder index
  · simp only [if_neg hopen, if_pos hbarred] at hgrant
    cases hgrant
    refine ⟨_, ?_, .inl rfl⟩
    simp only [run_map, h.openPage_barred hopen hbarred]
    exact ⟨trivial, trivial, .refl _ _ _, trivial⟩
  obtain ⟨id, d, hopened, huses, hnode, himage⟩ := h.openPage (Bool.not_eq_true _ ▸ hopen) hbarred
  have hsheet : ((d.image folder).sheet index).size = ((host.disk.image folder).sheet index).size := by
    rw [himage, Image.sheet_touch_zero]
  simp only [if_neg hopen, if_neg hbarred] at hgrant
  rw [← huses.refuses, ← hsheet] at hgrant
  by_cases hfit : d.refuses .fileSize (PageFile.path dir index) ∨
      d.refuses .setSize (PageFile.path dir index) ∧ ((d.image folder).sheet index).size < size
  · simp only [if_pos hfit] at hgrant
    cases hgrant
    refine ⟨_, ?_, .inr ⟨0, rfl⟩⟩
    simp only [run_map, hopened, Disk.fitPage_refused hnode hfit]
    exact ⟨trivial, trivial, huses, himage⟩
  obtain ⟨hfile, hset⟩ := not_or.mp hfit
  obtain ⟨d', hfitted, huses', -, himage'⟩ := Disk.fitPage_page (h.of_frame huses.toFrame).numbered hnode
    (Bool.not_eq_true _ ▸ hfile) (fun hrefused => Nat.le_of_not_lt fun hshort => hset ⟨hrefused, hshort⟩) hsize
  have hboth := huses.trans huses'
  rw [if_neg hfit, ← huses'.refuses] at hgrant
  split at hgrant
  · next hmap =>
    cases hgrant
    refine ⟨_, ?_, .inr ⟨size, rfl⟩⟩
    simp only [run_map, hopened, hfitted, if_pos (Or.inl hmap)]
    exact ⟨trivial, trivial, hboth, by rw [himage', himage, Image.touch_touch_zero]⟩
  · cases hgrant

end

end Page

end Spool
