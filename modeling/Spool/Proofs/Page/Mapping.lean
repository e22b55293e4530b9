import Spool.Page.Scan
import Spool.Proofs.Page.Access
import Spool.Proofs.Page.Alike

namespace Spool

namespace Disk

-- Page files are found there by number, whatever else is in the directory.
structure Shelf (d : Disk) (dir : Path) (folder : Location) : Prop where
  numbered : d.Numbered
  directory : d.node? folder = some .directory
  locate : d.locate dir = .ok folder
  locate_page : ∀ page, d.locate (PageFile.path dir page) = .ok (PageFile.name page :: folder)

structure Houses (d : Disk) (dir : Path) (folder : Location) : Prop where
  wellFormed : d.WellFormed
  directory : d.node? folder = some .directory
  is_folder : d.Folder folder
  locate : d.locate dir = .ok folder
  locate_page : ∀ page, d.locate (PageFile.path dir page) = .ok (PageFile.name page :: folder)

-- A directory is where a page file would be.
def Barred (d : Disk) (folder : Location) (page : UInt64) : Prop :=
  d.node? (PageFile.name page :: folder) = some .directory

-- Every file of a directory is a page file.
def Paged (d : Disk) (folder : Location) : Prop :=
  ∀ name id, d.node? (name :: folder) = some (.file id) → ∃ page, name = PageFile.name page

-- A change of the page files of one directory, by which no directory comes or goes.
structure Refills (folder : Location) (d d' : Disk) : Prop extends Frame [folder] d d' where
  noneNew : ∀ l, d'.node? l = some .directory → d.node? l = some .directory
  paged : d.Paged folder → d'.Paged folder

section

variable {d d' d'' : Disk} {dir : Path} {folder : Location} {page : UInt64}

theorem Houses.shelf (h : d.Houses dir folder) : d.Shelf dir folder :=
  ⟨h.wellFormed.toNumbered, h.directory, h.locate, h.locate_page⟩

theorem Shelf.houses (h : d.Shelf dir folder) (hcalm : d.Calm) (hfolder : d.Folder folder) :
    d.Houses dir folder :=
  ⟨⟨h.numbered, hcalm⟩, h.directory, hfolder, h.locate, h.locate_page⟩

theorem Shelf.of_frame {folders : List Location} (h : d.Shelf dir folder) (hframe : Frame folders d d') :
    d'.Shelf dir folder where
  numbered := hframe.numbered h.numbered
  directory := hframe.directories _ h.directory
  locate := locate_mono hframe.directories h.locate
  locate_page page := locate_mono hframe.directories (h.locate_page page)

theorem Folder.paged (h : d.Folder folder) : d.Paged folder := by
  intro name id hid
  obtain ⟨page, _, hname, -⟩ := h.pages hid
  exact ⟨page, hname⟩

theorem Folder.not_barred (h : d.Folder folder) (page : UInt64) : ¬d.Barred folder page := by
  intro hbarred
  obtain ⟨_, _, -, hfile⟩ := h.pages hbarred
  cases hfile

theorem Refills.refl (folder : Location) (d : Disk) : Refills folder d d :=
  ⟨Frame.refl _ _, fun _ h => h, fun h => h⟩

theorem Refills.trans (h : Refills folder d d') (h' : Refills folder d' d'') : Refills folder d d'' :=
  ⟨h.toFrame.trans h'.toFrame, fun l hl => h.noneNew l (h'.noneNew l hl), fun hd => h'.paged (h.paged hd)⟩

theorem Refills.barred_iff (h : Refills folder d d') (other : Location) (page : UInt64) :
    d'.Barred other page ↔ d.Barred other page :=
  ⟨h.noneNew _, h.directories _⟩

-- Where only page files were, there are only page files if no directory has come.
theorem Folder.of_noneNew (h : d.Folder folder) (hdir : d'.node? folder = some .directory)
    (hnew : ∀ l, d'.node? l = some .directory → d.node? l = some .directory) (hpaged : d'.Paged folder) :
    d'.Folder folder where
  not_file id hid := by
    rw [hdir] at hid
    cases hid
  pages := by
    intro name node hnode
    cases node with
    | directory =>
        obtain ⟨_, _, -, hfile⟩ := h.pages (hnew _ hnode)
        cases hfile
    | file id =>
        obtain ⟨page, hname⟩ := hpaged name id hnode
        exact ⟨page, id, hname, rfl⟩

theorem Refills.is_folder (h : Refills folder d d') (hdir : d.node? folder = some .directory)
    (hfolder : d.Folder folder) : d'.Folder folder :=
  hfolder.of_noneNew (h.directories _ hdir) h.noneNew (h.paged hfolder.paged)

theorem Rewrites.refills {file : FileId} {s : Sheet} (h : Rewrites d d' file s) (hnumbered : d.Numbered)
    (hnode : d.node? (PageFile.name page :: folder) = some (.file file))
    (hsize : (d.content file).size ≤ s.size) : Refills folder d d' where
  toFrame := (h.extends_place hnumbered hnode hsize).toFrame
  noneNew l hl := by rwa [h.node?] at hl
  paged hd := by
    intro name id hid
    rw [h.node?] at hid
    exact hd name id hid

theorem refills_addFile (hnumbered : d.Numbered) (hnode : d.node? (PageFile.name page :: folder) = none) :
    Refills folder d (d.addFile (PageFile.name page :: folder)).1 where
  toFrame := (extends_addFile hnumbered hnode).toFrame
  noneNew l hl := by
    rw [node?_addFile d (List.cons_ne_nil _ _)] at hl
    split at hl
    · cases hl
    · exact hl
  paged hd := by
    intro name id hid
    rw [node?_addFile d (List.cons_ne_nil _ _)] at hid
    split at hid
    · next hplace => exact ⟨page, (List.cons.inj hplace).1⟩
    · exact hd name id hid

theorem refills_eraseNode {file : FileId}
    (hnode : d.node? (PageFile.name page :: folder) = some (.file file)) :
    Refills folder d (d.eraseNode (PageFile.name page :: folder)) := by
  have hold : ∀ {l node}, (d.eraseNode (PageFile.name page :: folder)).node? l = some node →
      d.node? l = some node := by
    intro l node hl
    rw [node?_eraseNode d (List.cons_ne_nil _ _)] at hl
    split at hl
    · cases hl
    · exact hl
  exact ⟨frame_eraseNode hnode, fun _ hl => hold hl, fun hd name id hid => hd name id (hold hid)⟩

-- Directories stay where they are, so a change keeps the house if it leaves page files in it.
theorem Houses.of_change {folders : List Location} (h : d.Houses dir folder)
    (hframe : Frame folders d d') (hfolder : d'.Folder folder) : d'.Houses dir folder where
  wellFormed := hframe.wellFormed h.wellFormed
  directory := hframe.directories _ h.directory
  is_folder := hfolder
  locate := locate_mono hframe.directories h.locate
  locate_page page := locate_mono hframe.directories (h.locate_page page)

theorem Houses.of_frame {folders : List Location} (h : d.Houses dir folder)
    (hframe : Frame folders d d') (hplace : folder ∉ folders) : d'.Houses dir folder := by
  refine h.of_change hframe ⟨fun id hid => ?_, fun hnode => ?_⟩
  · rw [hframe.directories _ h.directory] at hid
    cases hid
  · rw [hframe.nodes _ _ hplace] at hnode
    exact h.is_folder.pages hnode

-- At the place of a page file there is a file or nothing.
theorem Folder.file_or_none (h : d.Folder folder) (name : String) :
    d.node? (name :: folder) = none ∨ ∃ id, d.node? (name :: folder) = some (.file id) := by
  cases hnode : d.node? (name :: folder) with
  | none => exact Or.inl rfl
  | some node =>
      obtain ⟨_, id, -, rfl⟩ := h.pages hnode
      exact Or.inr ⟨id, rfl⟩

theorem Shelf.openFile (h : d.Shelf dir folder) (hfree : ¬d.Barred folder page) :
    ∃ id d', d.openFile (PageFile.path dir page) = (.ok id, d') ∧ Extends folder d d' ∧
      Refills folder d d' ∧ d'.node? (PageFile.name page :: folder) = some (.file id) ∧
      d'.image folder = (d.image folder).set page ((d.image folder).sheet page) := by
  cases hnode : d.node? (PageFile.name page :: folder) with
  | none =>
      have hsheet : (d.image folder).sheet page = Sheet.blank := by
        rw [Image.sheet, image_eq_none hnode]
        rfl
      refine ⟨d.nextFile, (d.addFile (PageFile.name page :: folder)).1,
        openFile_of_none (h.locate_page page) hnode, extends_addFile h.numbered hnode,
        refills_addFile h.numbered hnode, ?_, ?_⟩
      · rw [node?_addFile d (List.cons_ne_nil _ _), if_pos rfl]
      · rw [hsheet]
        exact image_addFile h.numbered
  | some node =>
      cases node with
      | directory => exact absurd hnode hfree
      | file id =>
          refine ⟨id, d, openFile_of_file (h.locate_page page) hnode, Extends.refl folder d,
            Refills.refl folder d, hnode, ?_⟩
          rw [Image.sheet, image_eq_some hnode]
          exact (Image.set_eq_self (image_eq_some hnode)).symm

theorem growFile_page (hnumbered : d.Numbered) {id : FileId} {size : Nat}
    (hnode : d.node? (PageFile.name page :: folder) = some (.file id)) (hsize : size < maxFileSize) :
    ∃ d', d.growFile id size = (.ok (), d') ∧ Extends folder d d' ∧ Refills folder d d' ∧
      size ≤ (d'.content id).size ∧ d'.image folder = (d.image folder).touch size page := by
  have himage := image_eq_some hnode
  have hsheet : (d.image folder).sheet page = (d.content id).sheet := by
    rw [Image.sheet, himage]
    rfl
  unfold Disk.growFile
  by_cases hlong : size ≤ (d.content id).size
  · refine ⟨d, if_pos hlong, Extends.refl folder d, Refills.refl folder d, hlong, ?_⟩
    exact (Image.touch_eq_self himage hlong).symm
  · have hgrow := rewrites_setContent d id ((d.content id).growTo size)
    have hle : (d.content id).size ≤ ((d.content id).growTo size).sheet.size := Nat.le_max_left _ _
    refine ⟨_, ?_, hgrow.extends_place hnumbered hnode hle, hgrow.refills hnumbered hnode hle, ?_, ?_⟩
    · rw [if_neg hlong, if_neg (Nat.not_le_of_lt hsize)]
    · rw [hgrow.size_eq]
      exact Nat.le_max_right _ _
    · rw [hgrow.image_eq hnumbered hnode, Image.touch, Image.mapped, hsheet, Content.sheet_growTo]

end

end Disk

namespace Page

-- An open page on the page file of its number, which is long enough for it.
structure Maps (p : Page) (d : Disk) (folder : Location) (index : UInt64) (size : Nat) : Prop where
  index_eq : p.index = index
  size_eq : p.size = size
  isOpen : p.isOpen = true
  node : d.node? (PageFile.name index :: folder) = some (.file p.file)
  covers : size ≤ (d.content p.file).size

section

variable {p : Page} {d d' : Disk} {folder : Location} {index : UInt64} {size : Nat}

theorem Maps.of_alike {q : Page} (h : p.Maps d folder index size) (halike : p.Alike q) :
    q.Maps d folder index size where
  index_eq := halike.index.trans h.index_eq
  size_eq := halike.size.trans h.size_eq
  isOpen := halike.isOpen.trans h.isOpen
  node := halike.file.symm ▸ h.node
  covers := halike.file.symm ▸ h.covers

theorem Maps.of_extends (h : p.Maps d folder index size) (he : Disk.Extends folder d d') :
    p.Maps d' folder index size := by
  obtain ⟨hnode, hle⟩ := he.files _ _ h.node
  exact ⟨h.index_eq, h.size_eq, h.isOpen, hnode, Nat.le_trans h.covers hle⟩

theorem Maps.of_frame {folders : List Location} (h : p.Maps d folder index size)
    (hframe : Disk.Frame folders d d') (hplace : folder ∉ folders) : p.Maps d' folder index size where
  index_eq := h.index_eq
  size_eq := h.size_eq
  isOpen := h.isOpen
  node := (hframe.nodes _ _ hplace).trans h.node
  covers := by
    rw [hframe.contents _ _ _ hplace h.node]
    exact h.covers

theorem Maps.image_eq (h : p.Maps d folder index size) :
    d.image folder index = some (d.content p.file).sheet :=
  Disk.image_eq_some h.node

theorem Maps.touch_eq (h : p.Maps d folder index size) :
    (d.image folder).touch size index = d.image folder :=
  Image.touch_eq_self h.image_eq h.covers

theorem Maps.mapped_eq (h : p.Maps d folder index size) :
    (d.image folder).mapped size index = (d.content p.file).sheet :=
  Image.mapped_eq h.image_eq h.covers

end

end Page

end Spool
