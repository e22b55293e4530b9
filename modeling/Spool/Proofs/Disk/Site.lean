import Spool.Proofs.Page.Mapping

namespace Spool.Disk

-- A name that a part may have.
structure PartName (name : String) : Prop where
  isName : Path.IsName name
  short : name.utf8ByteSize ≤ 11
  noNul : '\x00' ∉ name.toList

instance (name : String) : Decidable (PartName name) :=
  decidable_of_iff (Path.IsName name ∧ name.utf8ByteSize ≤ 11 ∧ '\x00' ∉ name.toList)
    ⟨fun ⟨h₁, h₂, h₃⟩ => ⟨h₁, h₂, h₃⟩, fun ⟨h₁, h₂, h₃⟩ => ⟨h₁, h₂, h₃⟩⟩

structure Site (d : Disk) (dir : Path) (base : Location) : Prop where
  wellFormed : d.WellFormed
  walk : d.walk dir.steps = .ok base
  directory : d.node? base = some .directory
  short : dir.text.utf8ByteSize + 42 ≤ maxPathBytes
  noNul : '\x00' ∉ dir.text.toList
  parts : ∀ name, d.Folder (name :: base)

-- The place of a site, whatever is in its parts.
structure Ground (d : Disk) (dir : Path) (base : Location) : Prop where
  numbered : d.Numbered
  walk : d.walk dir.steps = .ok base
  directory : d.node? base = some .directory
  short : dir.text.utf8ByteSize + 42 ≤ maxPathBytes
  noNul : '\x00' ∉ dir.text.toList

section

variable {d d' : Disk} {dir : Path} {base : Location} {name : String}

theorem Site.ground (h : d.Site dir base) : d.Ground dir base :=
  ⟨h.wellFormed.toNumbered, h.walk, h.directory, h.short, h.noNul⟩

theorem Ground.of_frame {folders : List Location} (h : d.Ground dir base) (hframe : Frame folders d d') :
    d'.Ground dir base :=
  ⟨hframe.numbered h.numbered, walk_mono hframe.directories h.walk, hframe.directories _ h.directory,
    h.short, h.noNul⟩

private theorem Ground.checkText_part (h : d.Ground dir base) (hname : PartName name) :
    checkText (dir.join name) = .ok () := by
  have hsize := Path.utf8ByteSize_join_le dir hname.isName
  have hdir := h.short
  have hshort := hname.short
  exact checkText_eq_ok_iff.mpr
    ⟨Path.not_mem_join hname.isName (by decide) h.noNul hname.noNul, by omega⟩

private theorem Ground.checkText_page (h : d.Ground dir base) (hname : PartName name) (page : UInt64) :
    checkText (PageFile.path (dir.join name) page) = .ok () := by
  have hpage := PageFile.isName_name page
  have hpart := Path.not_mem_join hname.isName (by decide) h.noNul hname.noNul
  have hsize := Path.utf8ByteSize_join_le dir hname.isName
  have hsize' := Path.utf8ByteSize_join_le (dir.join name) hpage
  have hdir := h.short
  have hshort := hname.short
  have hdigits := PageFile.utf8ByteSize_name_le page
  refine checkText_eq_ok_iff.mpr ⟨?_, ?_⟩
  · exact Path.not_mem_join hpage (by decide) hpart (PageFile.nul_not_mem_name page)
  · unfold PageFile.path
    omega

-- Page files are found in a part that is there.
theorem Ground.shelf (h : d.Ground dir base) (hname : PartName name)
    (hpart : d.node? (name :: base) = some .directory) : d.Shelf (dir.join name) (name :: base) := by
  have hlong : name.utf8ByteSize ≤ maxNameBytes := Nat.le_trans hname.short (by decide)
  have hwalk : d.walk (dir.join name).steps = .ok (name :: base) := by
    rw [Path.steps_join dir hname.isName]
    exact walk_append_name h.walk h.directory hname.isName hlong
  refine ⟨h.numbered, hpart, ?_, ?_⟩
  · exact locate_join (h.checkText_part hname) h.walk h.directory hname.isName hlong
  · intro page
    have hdigits : (PageFile.name page).utf8ByteSize ≤ maxNameBytes :=
      Nat.le_trans (PageFile.utf8ByteSize_name_le page) (by decide)
    exact locate_join (h.checkText_page hname page) hwalk hpart (PageFile.isName_name page) hdigits

private theorem Ground.makeDirectories (h : d.Ground dir base) (hname : PartName name)
    (hfile : ∀ id, d.node? (name :: base) ≠ some (.file id)) :
    d.makeDirectories (dir.join name) =
      (.ok (), if d.node? (name :: base) = some .directory then d else d.addDirectory (name :: base)) :=
  makeDirectories_join (h.checkText_part hname) h.walk h.directory hname.isName
    (Nat.le_trans hname.short (by decide)) hfile

-- A part that is there need not be made.
theorem Ground.makeDirectories_self (h : d.Ground dir base) (hname : PartName name)
    (hpart : d.node? (name :: base) = some .directory) :
    d.makeDirectories (dir.join name) = (.ok (), d) := by
  have hmake := h.makeDirectories hname fun id hid => by
    rw [hpart] at hid
    cases hid
  rwa [if_pos hpart] at hmake

-- A part that is there houses page files.
theorem Site.houses (h : d.Site dir base) (hname : PartName name)
    (hpart : d.node? (name :: base) = some .directory) : d.Houses (dir.join name) (name :: base) :=
  (h.ground.shelf hname hpart).houses h.wellFormed.calm (h.parts name)

-- What changes one part leaves the site as it is, if that part keeps to page files.
theorem Site.of_frame (h : d.Site dir base) (hframe : Frame [name :: base] d d')
    (hpart : d'.Folder (name :: base)) : d'.Site dir base where
  wellFormed := hframe.wellFormed h.wellFormed
  walk := walk_mono hframe.directories h.walk
  directory := hframe.directories _ h.directory
  short := h.short
  noNul := h.noNul
  parts other := by
    by_cases hother : other = name
    · exact hother ▸ hpart
    · have hbase : base ∉ [name :: base] := by simp
      have hplace : other :: base ∉ [name :: base] := by simp [hother]
      exact (h.parts other).of_frame hframe hbase hplace

theorem Site.addDirectory (h : d.Site dir base) (name : String) :
    (d.addDirectory (name :: base)).Site dir base where
  wellFormed := (frame_addDirectory d name base).wellFormed h.wellFormed
  walk := walk_mono (frame_addDirectory d name base).directories h.walk
  directory := (frame_addDirectory d name base).directories _ h.directory
  short := h.short
  noNul := h.noNul
  parts other := (h.parts other).addDirectory

-- A part is made unless it is there.
theorem Site.makeDirectories (h : d.Site dir base) (hname : PartName name) :
    ∃ d', d.makeDirectories (dir.join name) = (.ok (), d') ∧ Frame [base] d d' ∧
      d'.Site dir base ∧ d'.node? (name :: base) = some .directory := by
  have hmake := h.ground.makeDirectories hname (h.parts name).not_file
  by_cases hpart : d.node? (name :: base) = some .directory
  · rw [if_pos hpart] at hmake
    exact ⟨d, hmake, Frame.refl _ _, h, hpart⟩
  · rw [if_neg hpart] at hmake
    refine ⟨_, hmake, frame_addDirectory d name base, h.addDirectory name, ?_⟩
    rw [node?_addDirectory d (List.cons_ne_nil _ _), if_pos rfl]

end

-- An empty directory, with room for the names of everything that a queue keeps in it.
structure Vacant (d : Disk) (dir : Path) (base : Location) : Prop where
  wellFormed : d.WellFormed
  walk : d.walk dir.steps = .ok base
  directory : d.node? base = some .directory
  short : dir.text.utf8ByteSize + 42 ≤ maxPathBytes
  noNul : '\x00' ∉ dir.text.toList
  nothing : ∀ names, names ≠ [] → d.node? (names ++ base) = none

section

variable {d : Disk} {dir : Path} {base : Location}

theorem Vacant.site (h : d.Vacant dir base) : d.Site dir base where
  wellFormed := h.wellFormed
  walk := h.walk
  directory := h.directory
  short := h.short
  noNul := h.noNul
  parts name := by
    constructor
    · intro id hid
      rw [show name :: base = [name] ++ base from rfl, h.nothing _ (List.cons_ne_nil _ _)] at hid
      cases hid
    · intro entry node hentry
      rw [show entry :: name :: base = [entry, name] ++ base from rfl,
        h.nothing _ (List.cons_ne_nil _ _)] at hentry
      cases hentry

theorem Vacant.image_eq_none (h : d.Vacant dir base) (name : String) (page : UInt64) :
    d.image (name :: base) page = none :=
  Disk.image_eq_none (h.nothing [PageFile.name page, name] (List.cons_ne_nil _ _))

end

theorem node?_empty (name : String) (outer : Location) : empty.node? (name :: outer) = none := by
  simp [node?, empty]

theorem wellFormed_empty : empty.WellFormed := by
  have hnone : ∀ l id, empty.node? l ≠ some (.file id) := by
    intro l id hl
    cases l with
    | nil => cases hl
    | cons name outer =>
        rw [node?_empty] at hl
        cases hl
  exact ⟨⟨fun hl => absurd hl (hnone _ _), fun hl => absurd hl (hnone _ _)⟩, fun _ _ => rfl⟩

-- On a new disk, a directory with nothing in it.
theorem vacant_addDirectory {name : String} (hname : PartName name) :
    (empty.addDirectory [name]).Vacant ⟨name⟩ [name] where
  wellFormed := (frame_addDirectory empty name []).wellFormed wellFormed_empty
  walk := walk_of_isName hname.isName (Nat.le_trans hname.short (by decide))
  directory := by rw [node?_addDirectory empty (List.cons_ne_nil _ _), if_pos rfl]
  short := by
    have hshort := hname.short
    show name.utf8ByteSize + 42 ≤ 4095
    omega
  noNul := hname.noNul
  nothing := by
    intro names hnames
    cases names with
    | nil => exact absurd rfl hnames
    | cons first rest =>
        rw [node?_addDirectory empty (List.cons_ne_nil _ _), if_neg (by simp)]
        exact node?_empty _ _

end Spool.Disk
