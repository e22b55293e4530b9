import Spool.Disk.Basic
import Spool.Proofs.Page.Name
import Spool.Proofs.Page.Sheet

namespace Spool.Disk

-- Every file has one place, and no number is given out twice.
structure Numbered (d : Disk) : Prop where
  lt_nextFile : ∀ {l id}, d.node? l = some (.file id) → id < d.nextFile
  unique : ∀ {l l' id}, d.node? l = some (.file id) → d.node? l' = some (.file id) → l = l'

-- The system refuses nothing that the disk allows.
def Calm (d : Disk) : Prop :=
  ∀ call p, d.refuses call p = false

structure WellFormed (d : Disk) : Prop extends Numbered d where
  calm : d.Calm

-- Nothing but entries of the given directories has changed, and no directory is gone.
structure Frame (folders : List Location) (d d' : Disk) : Prop where
  directories : ∀ l, d.node? l = some .directory → d'.node? l = some .directory
  nodes : ∀ name outer, outer ∉ folders → d'.node? (name :: outer) = d.node? (name :: outer)
  contents : ∀ name outer id, outer ∉ folders → d.node? (name :: outer) = some (.file id) →
    d'.content id = d.content id
  numbered : d.Numbered → d'.Numbered
  refuses : d'.refuses = d.refuses

theorem Calm.of_eq {d d' : Disk} (h : d.Calm) (hrefuses : d'.refuses = d.refuses) : d'.Calm := by
  intro call p
  rw [hrefuses]
  exact h call p

theorem Frame.wellFormed {folders : List Location} {d d' : Disk} (h : Frame folders d d')
    (hwf : d.WellFormed) : d'.WellFormed :=
  ⟨h.numbered hwf.toNumbered, hwf.calm.of_eq h.refuses⟩

theorem Frame.refl (folders : List Location) (d : Disk) : Frame folders d d :=
  ⟨fun _ h => h, fun _ _ _ => rfl, fun _ _ _ _ _ => rfl, fun h => h, rfl⟩

theorem Frame.trans {folders : List Location} {d d' d'' : Disk} (h : Frame folders d d')
    (h' : Frame folders d' d'') : Frame folders d d'' where
  directories l hl := h'.directories l (h.directories l hl)
  nodes name outer hout := (h'.nodes name outer hout).trans (h.nodes name outer hout)
  contents name outer id hout hnode := by
    have hnode' := (h.nodes name outer hout).trans hnode
    exact (h'.contents name outer id hout hnode').trans (h.contents name outer id hout hnode)
  numbered hd := h'.numbered (h.numbered hd)
  refuses := h'.refuses.trans h.refuses

theorem Frame.mono {folders folders' : List Location} {d d' : Disk} (h : Frame folders d d')
    (hsub : folders ⊆ folders') : Frame folders' d d' where
  directories := h.directories
  nodes name outer hout := h.nodes name outer fun hin => hout (hsub hin)
  contents name outer id hout hnode := h.contents name outer id (fun hin => hout (hsub hin)) hnode
  numbered := h.numbered
  refuses := h.refuses

-- The page files of a directory.
def image (d : Disk) (folder : Location) : Image := fun page =>
  match d.node? (PageFile.name page :: folder) with
  | some (.file id) => some (d.content id).sheet
  | _ => none

-- A page is the same on two disks where its file is the same and holds the same.
theorem image_congr {d d' : Disk} {folder : Location} {page : UInt64}
    (hnode : d'.node? (PageFile.name page :: folder) = d.node? (PageFile.name page :: folder))
    (hcontent : ∀ id, d.node? (PageFile.name page :: folder) = some (.file id) →
      d'.content id = d.content id) : d'.image folder page = d.image folder page := by
  unfold image
  rw [hnode]
  split
  · next id hid => rw [hcontent id hid]
  · rfl

theorem Frame.image_eq {folders : List Location} {d d' : Disk} (h : Frame folders d d')
    {folder : Location} (hout : folder ∉ folders) : d'.image folder = d.image folder := by
  funext page
  exact image_congr (h.nodes _ _ hout) fun id hid => h.contents _ _ id hout hid

-- A place for page files: it is not a file itself, and whatever is in it is a page file.
structure Folder (d : Disk) (place : Location) : Prop where
  not_file : ∀ id, d.node? place ≠ some (.file id)
  pages : ∀ {name node}, d.node? (name :: place) = some node →
    ∃ page id, name = PageFile.name page ∧ node = .file id

theorem Folder.of_frame {folders : List Location} {d d' : Disk} {name : String} {outer : Location}
    (h : d.Folder (name :: outer)) (hframe : Frame folders d d') (houter : outer ∉ folders)
    (hplace : name :: outer ∉ folders) : d'.Folder (name :: outer) where
  not_file id := by
    rw [hframe.nodes _ _ houter]
    exact h.not_file id
  pages hnode := by
    rw [hframe.nodes _ _ hplace] at hnode
    exact h.pages hnode

theorem frame_addDirectory (d : Disk) (name : String) (outer : Location) :
    Frame [outer] d (d.addDirectory (name :: outer)) where
  directories l hl := by
    rw [node?_addDirectory d (List.cons_ne_nil _ _)]
    split
    · rfl
    · exact hl
  nodes name' outer' hout := by
    rw [node?_addDirectory d (List.cons_ne_nil _ _), if_neg]
    intro h
    injection h with _ houter
    exact hout (by simp [houter])
  contents _ _ _ _ _ := rfl
  numbered hd := by
    have hold : ∀ {l id}, (d.addDirectory (name :: outer)).node? l = some (.file id) →
        d.node? l = some (.file id) := by
      intro l id hl
      rw [node?_addDirectory d (List.cons_ne_nil _ _)] at hl
      split at hl
      · cases hl
      · exact hl
    exact ⟨fun hl => hd.lt_nextFile (hold hl), fun hl hl' => hd.unique (hold hl) (hold hl')⟩
  refuses := rfl

theorem Folder.addDirectory {d : Disk} {name name' : String} {outer : Location}
    (h : d.Folder (name' :: outer)) : (d.addDirectory (name :: outer)).Folder (name' :: outer) where
  not_file id := by
    rw [node?_addDirectory d (List.cons_ne_nil _ _)]
    split
    · simp
    · exact h.not_file id
  pages := by
    intro entry node hentry
    rw [node?_addDirectory d (List.cons_ne_nil _ _), if_neg] at hentry
    · exact h.pages hentry
    · intro hplace
      injection hplace with _ houter
      exact List.cons_ne_self _ _ houter

-- The disk with other bytes in one file.
structure Rewrites (d d' : Disk) (file : FileId) (s : Sheet) : Prop where
  nodes : d'.nodes = d.nodes
  nextFile : d'.nextFile = d.nextFile
  refuses : d'.refuses = d.refuses
  others : ∀ id, id ≠ file → d'.content id = d.content id
  sheet : (d'.content file).sheet = s

theorem Rewrites.refl (d : Disk) (file : FileId) : Rewrites d d file (d.content file).sheet :=
  ⟨rfl, rfl, rfl, fun _ _ => rfl, rfl⟩

theorem rewrites_setContent (d : Disk) (file : FileId) (c : Content) :
    Rewrites d (d.setContent file c) file c.sheet where
  nodes := rfl
  nextFile := rfl
  refuses := rfl
  others id hid := by rw [content_setContent, if_neg hid]
  sheet := by rw [content_setContent, if_pos rfl]

theorem exists_growFile (d : Disk) (file : FileId) {size : Nat}
    (h : size ≤ (d.content file).size ∨ size < maxFileSize) :
    ∃ d', d.growFile file size = (.ok (), d') ∧ Rewrites d d' file ((d.content file).sheet.growTo size) := by
  unfold growFile
  by_cases hfits : size ≤ (d.content file).size
  · refine ⟨d, if_pos hfits, ?_⟩
    have hsame : (d.content file).sheet.growTo size = (d.content file).sheet := Sheet.growTo_eq_self hfits
    rw [hsame]
    exact Rewrites.refl d file
  · rw [if_neg hfits, if_neg (by omega), ← Content.sheet_growTo]
    exact ⟨_, rfl, rewrites_setContent d file _⟩

theorem Rewrites.trans {d d' d'' : Disk} {file : FileId} {s t : Sheet} (h : Rewrites d d' file s)
    (h' : Rewrites d' d'' file t) : Rewrites d d'' file t where
  nodes := h'.nodes.trans h.nodes
  nextFile := h'.nextFile.trans h.nextFile
  refuses := h'.refuses.trans h.refuses
  others id hid := (h'.others id hid).trans (h.others id hid)
  sheet := h'.sheet

theorem Rewrites.size_eq {d d' : Disk} {file : FileId} {s : Sheet} (h : Rewrites d d' file s) :
    (d'.content file).size = s.size :=
  congrArg Sheet.size h.sheet

theorem Rewrites.node? {d d' : Disk} {file : FileId} {s : Sheet} (h : Rewrites d d' file s)
    (l : Location) : d'.node? l = d.node? l := by
  cases l with
  | nil => rfl
  | cons name outer => simp only [Disk.node?, h.nodes]

-- A change of one directory of page files that takes none away and cuts none.
structure Extends (place : Location) (d d' : Disk) : Prop extends Frame [place] d d' where
  folder : d.Folder place → d'.Folder place
  files : ∀ name id, d.node? (name :: place) = some (.file id) →
    d'.node? (name :: place) = some (.file id) ∧ (d.content id).size ≤ (d'.content id).size

theorem Extends.refl (place : Location) (d : Disk) : Extends place d d :=
  ⟨Frame.refl _ _, fun h => h, fun _ _ h => ⟨h, Nat.le_refl _⟩⟩

theorem Extends.trans {place : Location} {d d' d'' : Disk} (h : Extends place d d')
    (h' : Extends place d' d'') : Extends place d d'' where
  toFrame := h.toFrame.trans h'.toFrame
  folder hd := h'.folder (h.folder hd)
  files name id hid := by
    obtain ⟨hid', hle⟩ := h.files name id hid
    obtain ⟨hid'', hle'⟩ := h'.files name id hid'
    exact ⟨hid'', Nat.le_trans hle hle'⟩

section PageFile

variable {d d' : Disk} {page : UInt64} {place : Location} {file : FileId} {s : Sheet}

theorem image_eq_some (hnode : d.node? (PageFile.name page :: place) = some (.file file)) :
    d.image place page = some (d.content file).sheet := by
  simp only [image, hnode]

theorem image_eq_none (hnode : d.node? (PageFile.name page :: place) = none) :
    d.image place page = none := by
  simp only [image, hnode]

theorem exists_file_of_image (himage : d.image place page = some s) :
    ∃ id, d.node? (PageFile.name page :: place) = some (.file id) ∧ (d.content id).sheet = s := by
  unfold image at himage
  split at himage
  · next id hnode => exact ⟨id, hnode, Option.some.inj himage⟩
  · cases himage

private theorem page_eq_of_place_eq {other : UInt64}
    (h : PageFile.name other :: place = PageFile.name page :: place) : other = page := by
  injection h with hname _
  exact PageFile.name_injective hname

theorem Rewrites.extends_place (h : Rewrites d d' file s) (hnumbered : d.Numbered)
    (hnode : d.node? (PageFile.name page :: place) = some (.file file))
    (hsize : (d.content file).size ≤ s.size) : Extends place d d' where
  directories l hl := by rw [h.node?, hl]
  nodes name outer _ := h.node? _
  contents name outer id hout hid := by
    apply h.others
    rintro rfl
    have hplace := hnumbered.unique hnode hid
    injection hplace with _ houter
    exact hout (by simp [houter])
  numbered _ := by
    constructor
    · intro l id hl
      rw [h.node?] at hl
      rw [h.nextFile]
      exact hnumbered.lt_nextFile hl
    · intro l l' id hl hl'
      rw [h.node?] at hl hl'
      exact hnumbered.unique hl hl'
  refuses := h.refuses
  folder hd := by
    constructor
    · intro id
      rw [h.node?]
      exact hd.not_file id
    · intro name node hname
      rw [h.node?] at hname
      exact hd.pages hname
  files name id hid := by
    refine ⟨by rw [h.node?, hid], ?_⟩
    by_cases hfile : id = file
    · rw [hfile, h.size_eq]
      exact hsize
    · exact Nat.le_of_eq (congrArg Content.size (h.others id hfile).symm)

theorem Rewrites.image_eq (h : Rewrites d d' file s) (hnumbered : d.Numbered)
    (hnode : d.node? (PageFile.name page :: place) = some (.file file)) :
    d'.image place = (d.image place).set page s := by
  funext other
  by_cases hother : other = page
  · have hsome : d'.image place page = some s := by
      simp only [image, h.node?, hnode, h.sheet]
    rw [hother, hsome, Image.set_self]
  · rw [Image.set, if_neg hother]
    apply image_congr (h.node? _)
    intro id hid
    apply h.others
    rintro rfl
    exact hother (page_eq_of_place_eq (hnumbered.unique hnode hid)).symm

-- A file of the disk with a new one is the new one, or was there.
private theorem file_of_node?_addFile {l l' : Location} {id : FileId} (hne : l ≠ [])
    (h : (d.addFile l).1.node? l' = some (.file id)) :
    l' = l ∧ id = d.nextFile ∨ d.node? l' = some (.file id) := by
  rw [node?_addFile d hne] at h
  by_cases hl : l' = l
  · rw [if_pos hl] at h
    cases h
    exact Or.inl ⟨hl, rfl⟩
  · rw [if_neg hl] at h
    exact Or.inr h

theorem Numbered.addFile (hnumbered : d.Numbered) {l : Location} (hne : l ≠ []) :
    (d.addFile l).1.Numbered where
  lt_nextFile := by
    intro l' id hl'
    show id < d.nextFile + 1
    rcases file_of_node?_addFile hne hl' with ⟨-, rfl⟩ | hl'
    · exact Nat.lt_succ_self _
    · exact Nat.lt_succ_of_lt (hnumbered.lt_nextFile hl')
  unique := by
    intro l' l'' id hl' hl''
    rcases file_of_node?_addFile hne hl' with ⟨rfl, rfl⟩ | hl'
    · rcases file_of_node?_addFile hne hl'' with ⟨rfl, -⟩ | hl''
      · rfl
      · exact absurd (hnumbered.lt_nextFile hl'') (Nat.lt_irrefl _)
    · rcases file_of_node?_addFile hne hl'' with ⟨-, rfl⟩ | hl''
      · exact absurd (hnumbered.lt_nextFile hl') (Nat.lt_irrefl _)
      · exact hnumbered.unique hl' hl''

private theorem Folder.addPageFile (h : d.Folder place) (page : UInt64) :
    (d.addFile (PageFile.name page :: place)).1.Folder place where
  not_file id := by
    rw [node?_addFile d (List.cons_ne_nil _ _), if_neg List.ne_cons_self]
    exact h.not_file id
  pages := by
    intro name node hname
    rw [node?_addFile d (List.cons_ne_nil _ _)] at hname
    by_cases hplace : name :: place = PageFile.name page :: place
    · rw [if_pos hplace] at hname
      injection hplace with heq _
      cases hname
      exact ⟨page, d.nextFile, heq, rfl⟩
    · rw [if_neg hplace] at hname
      exact h.pages hname

-- A page file that is made where nothing is.
theorem extends_addFile (hnumbered : d.Numbered) (hnode : d.node? (PageFile.name page :: place) = none) :
    Extends place d (d.addFile (PageFile.name page :: place)).1 where
  directories l hl := by
    rw [node?_addFile d (List.cons_ne_nil _ _)]
    by_cases h : l = PageFile.name page :: place
    · rw [h, hnode] at hl
      cases hl
    · rw [if_neg h, hl]
  nodes name outer hout := by
    rw [node?_addFile d (List.cons_ne_nil _ _), if_neg]
    intro h
    injection h with _ houter
    exact hout (by simp [houter])
  contents name outer id _ hid := by
    rw [content_addFile, if_neg (Nat.ne_of_lt (hnumbered.lt_nextFile hid))]
  numbered _ := hnumbered.addFile (List.cons_ne_nil _ _)
  refuses := rfl
  folder hd := hd.addPageFile page
  files name id hid := by
    have hplace : name :: place ≠ PageFile.name page :: place := by
      intro h
      rw [h, hnode] at hid
      cases hid
    rw [node?_addFile d (List.cons_ne_nil _ _), if_neg hplace, content_addFile,
      if_neg (Nat.ne_of_lt (hnumbered.lt_nextFile hid))]
    exact ⟨hid, Nat.le_refl _⟩

theorem image_addFile (hnumbered : d.Numbered) :
    (d.addFile (PageFile.name page :: place)).1.image place =
      (d.image place).set page Sheet.blank := by
  funext other
  by_cases hother : other = page
  · have hsome : (d.addFile (PageFile.name page :: place)).1.image place page =
        some Sheet.blank := by
      simp only [image, node?_addFile d (List.cons_ne_nil _ _), content_addFile, if_true,
        Content.sheet_empty]
    rw [hother, hsome, Image.set_self]
  · rw [Image.set, if_neg hother]
    apply image_congr
    · rw [node?_addFile d (List.cons_ne_nil _ _), if_neg]
      exact fun h => hother (page_eq_of_place_eq h)
    · intro id hid
      rw [content_addFile, if_neg (Nat.ne_of_lt (hnumbered.lt_nextFile hid))]

-- A page file with something in it, made where nothing is.
def addPage (d : Disk) (place : Location) (page : UInt64) (c : Content) : Disk :=
  (d.addFile (PageFile.name page :: place)).1.setContent d.nextFile c

private theorem node?_addFile_self (d : Disk) :
    (d.addFile (PageFile.name page :: place)).1.node? (PageFile.name page :: place) =
      some (.file d.nextFile) := by
  rw [node?_addFile d (List.cons_ne_nil _ _), if_pos rfl]

theorem extends_addPage (hnumbered : d.Numbered) (hnode : d.node? (PageFile.name page :: place) = none)
    (c : Content) : Extends place d (d.addPage place page c) := by
  have hadd := extends_addFile hnumbered hnode
  have hrewrites := rewrites_setContent (d.addFile (PageFile.name page :: place)).1 d.nextFile c
  refine hadd.trans (hrewrites.extends_place (hadd.numbered hnumbered) d.node?_addFile_self ?_)
  rw [content_addFile, if_pos rfl]
  exact Nat.zero_le _

theorem image_addPage (hnumbered : d.Numbered) (hnode : d.node? (PageFile.name page :: place) = none)
    (c : Content) : (d.addPage place page c).image place = (d.image place).set page c.sheet := by
  have hadd := extends_addFile hnumbered hnode
  have hrewrites := rewrites_setContent (d.addFile (PageFile.name page :: place)).1 d.nextFile c
  have himage := hrewrites.image_eq (hadd.numbered hnumbered) d.node?_addFile_self
  rwa [image_addFile hnumbered, Image.set_set] at himage

end PageFile

-- A disk without the entry at a place.
def eraseNode (d : Disk) (l : Location) : Disk :=
  { d with nodes := d.nodes.erase l }

theorem node?_eraseNode (d : Disk) {l : Location} (hl : l ≠ []) (other : Location) :
    (d.eraseNode l).node? other = if other = l then none else d.node? other := by
  cases other with
  | nil => simp [node?, Ne.symm hl]
  | cons name outer =>
      by_cases h : name :: outer = l
      · simp [node?, eraseNode, h]
      · simp [node?, eraseNode, Std.TreeMap.getElem?_erase, h, Ne.symm h]

section Erase

variable {d : Disk} {page : UInt64} {place : Location} {file : FileId}

theorem frame_eraseNode (hnode : d.node? (PageFile.name page :: place) = some (.file file)) :
    Frame [place] d (d.eraseNode (PageFile.name page :: place)) where
  directories l hl := by
    rw [node?_eraseNode d (List.cons_ne_nil _ _), if_neg, hl]
    rintro rfl
    rw [hnode] at hl
    cases hl
  nodes name outer hout := by
    rw [node?_eraseNode d (List.cons_ne_nil _ _), if_neg]
    intro h
    injection h with _ houter
    exact hout (by simp [houter])
  contents _ _ _ _ _ := rfl
  numbered hd := by
    have hold : ∀ {l id}, (d.eraseNode (PageFile.name page :: place)).node? l = some (.file id) →
        d.node? l = some (.file id) := by
      intro l id hl
      rw [node?_eraseNode d (List.cons_ne_nil _ _)] at hl
      split at hl
      · cases hl
      · exact hl
    exact ⟨fun hl => hd.lt_nextFile (hold hl), fun hl hl' => hd.unique (hold hl) (hold hl')⟩
  refuses := rfl

theorem image_eraseNode :
    (d.eraseNode (PageFile.name page :: place)).image place =
      (d.image place).without fun other => other = page := by
  funext other
  by_cases hother : other = page
  · simp only [image, node?_eraseNode d (List.cons_ne_nil _ _), hother, Image.without, if_true,
      decide_true]
  · rw [Image.without, if_neg (by simpa using hother)]
    apply image_congr
    · rw [node?_eraseNode d (List.cons_ne_nil _ _), if_neg]
      intro h
      injection h with hname _
      exact hother (PageFile.name_injective hname)
    · intro id _
      rfl

end Erase

end Spool.Disk
