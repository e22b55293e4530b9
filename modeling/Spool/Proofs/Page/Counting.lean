import Spool.Proofs.Page.Found

namespace Spool

namespace Disk

-- A file of some name in a directory counts as some page.
def Counts (d : Disk) (dir : Path) (name : String) (page : UInt64) : Prop :=
  ∃ place id path, d.locate dir = .ok place ∧ d.node? place = some .directory ∧
    d.node? (name :: place) = some (.file id) ∧
    PageFile.numbered? dir (name, .file id) = some (page, path)

-- Some page files of a directory are gone, and nothing else has changed.
structure Loses (dir : Path) (gone : List UInt64) (d d' : Disk) : Prop where
  content : ∀ id, d'.content id = d.content id
  locate_iff : ∀ {path : Path} {place : Location}, d'.locate path = .ok place ↔ d.locate path = .ok place
  node : ∀ place, d'.node? place = d.node? place ∨
    d'.node? place = none ∧ (∃ id, d.node? place = some (.file id)) ∧
      ∃ page ∈ gone, d.locate (PageFile.path dir page) = .ok place
  cleared : ∀ {page : UInt64} {place : Location} {id : FileId}, page ∈ gone →
    d.locate (PageFile.path dir page) = .ok place → d'.node? place ≠ some (.file id)

section

variable {d d' d'' : Disk} {dir : Path} {gone gone' : List UInt64} {name : String} {page : UInt64}
  {place : Location} {id : FileId} {found : List (UInt64 × Path)}

theorem locate_iff_of_directories (h : ∀ l, d'.node? l = some .directory ↔ d.node? l = some .directory)
    {path : Path} : d'.locate path = .ok place ↔ d.locate path = .ok place :=
  ⟨locate_mono fun l => (h l).mp, locate_mono fun l => (h l).mpr⟩

namespace Loses

theorem refl (dir : Path) (d : Disk) : Loses dir [] d d :=
  ⟨fun _ => rfl, Iff.rfl, fun _ => .inl rfl, nofun⟩

theorem node?_directory_iff (h : Loses dir gone d d') :
    d'.node? place = some .directory ↔ d.node? place = some .directory := by
  rcases h.node place with hsame | ⟨hnone, ⟨id, hfile⟩, -⟩
  · rw [hsame]
  · simp [hnone, hfile]

theorem file_of_file (h : Loses dir gone d d') (hfile : d'.node? place = some (.file id)) :
    d.node? place = some (.file id) := by
  rcases h.node place with hsame | ⟨hnone, -⟩
  · rwa [hsame] at hfile
  · cases hnone.symm.trans hfile

theorem trans (h : Loses dir gone d d') (h' : Loses dir gone' d' d'') : Loses dir (gone ++ gone') d d'' where
  content id := (h'.content id).trans (h.content id)
  locate_iff := h'.locate_iff.trans h.locate_iff
  node place := by
    rcases h'.node place with hsame' | ⟨hnone, ⟨id, hfile⟩, page, hgone, hlocate⟩
    · rcases h.node place with hsame | ⟨hnone, hfile, page, hgone, hlocate⟩
      · exact .inl (hsame'.trans hsame)
      · exact .inr ⟨hsame'.trans hnone, hfile, page, List.mem_append_left _ hgone, hlocate⟩
    · exact .inr ⟨hnone, ⟨id, h.file_of_file hfile⟩, page, List.mem_append_right _ hgone,
        h.locate_iff.mp hlocate⟩
  cleared hgone hlocate hfile := by
    rcases List.mem_append.mp hgone with hgone | hgone
    · exact h.cleared hgone hlocate (h'.file_of_file hfile)
    · exact h'.cleared hgone (h.locate_iff.mpr hlocate) hfile

-- There is no such file.
theorem of_absent (h : ∀ place id, d.locate (PageFile.path dir page) = .ok place →
    d.node? place ≠ some (.file id)) : Loses dir [page] d d where
  content _ := rfl
  locate_iff := Iff.rfl
  node _ := .inl rfl
  cleared hgone hlocate := by
    rw [List.mem_singleton.mp hgone] at hlocate
    exact h _ _ hlocate

theorem of_eraseNode (hlocate : d.locate (PageFile.path dir page) = .ok place)
    (hfile : d.node? place = some (.file id)) : Loses dir [page] d (d.eraseNode place) := by
  have hne : place ≠ [] := by
    rintro rfl
    cases hfile
  refine ⟨fun _ => rfl, locate_iff_of_directories fun l => ?_, fun l => ?_, fun hgone hlocate' => ?_⟩
  · rw [node?_eraseNode d hne]
    split
    · next hl => simp [hl, hfile]
    · exact Iff.rfl
  · rw [node?_eraseNode d hne]
    split
    · next hl => exact .inr ⟨rfl, ⟨id, hl ▸ hfile⟩, page, List.mem_singleton_self page, hl ▸ hlocate⟩
    · exact .inl rfl
  · rw [List.mem_singleton.mp hgone, hlocate] at hlocate'
    cases hlocate'
    rw [node?_eraseNode d hne, if_pos rfl]
    exact nofun

end Loses

-- A page whose own name is taken for a page file is found by its path.
theorem locate_page_of_numbered (hdir : d.locate dir = .ok place) (hnode : d.node? place = some .directory)
    {path : Path} (hnumber : PageFile.numbered? dir (PageFile.name page, .file id) = some (page, path)) :
    d.locate (PageFile.path dir page) = .ok (PageFile.name page :: place) := by
  have hsize := PageFile.utf8ByteSize_name_le page
  exact locate_join (numbered?_file_iff.mp hnumber).1 (walk_of_locate hdir) hnode (PageFile.isName_name page)
    (Nat.le_trans hsize (by decide))

-- A file is lost exactly if its name is the own name of a page that is gone.
theorem Loses.counts_iff (h : Loses dir gone d d') :
    d'.Counts dir name page ↔ d.Counts dir name page ∧ (page ∈ gone → name ≠ PageFile.name page) := by
  constructor
  · rintro ⟨place, id, path, hdir, hnode, hfile, hnumber⟩
    have hdir := h.locate_iff.mp hdir
    have hnode := h.node?_directory_iff.mp hnode
    refine ⟨⟨place, id, path, hdir, hnode, h.file_of_file hfile, hnumber⟩, ?_⟩
    rintro hgone rfl
    exact h.cleared hgone (locate_page_of_numbered hdir hnode hnumber) hfile
  · rintro ⟨⟨place, id, path, hdir, hnode, hfile, hnumber⟩, hkept⟩
    refine ⟨place, id, path, h.locate_iff.mpr hdir, h.node?_directory_iff.mpr hnode, ?_, hnumber⟩
    rcases h.node (name :: place) with hsame | ⟨-, -, page', hgone, hlocate⟩
    · rw [hsame, hfile]
    · obtain ⟨_, -, -, hplace⟩ := of_locate_join (PageFile.isName_name page') hlocate
      obtain rfl : name = PageFile.name page' := (List.cons.inj hplace).1
      rw [numbered?_name (checkText_of_locate hlocate)] at hnumber
      obtain rfl : page' = page := congrArg Prod.fst (Option.some.inj hnumber)
      exact absurd rfl (hkept hgone)

-- What is found for a page that is not gone is what was found before.
theorem Loses.lookup_iff (h : Loses dir gone d d') (hkept : page ∉ gone) {node : Node} :
    d'.lookup (PageFile.path dir page) = .ok node ↔ d.lookup (PageFile.path dir page) = .ok node := by
  rw [lookup_eq_ok_iff, lookup_eq_ok_iff]
  refine exists_congr fun place => ?_
  rw [h.locate_iff]
  refine and_congr_right fun hlocate => ?_
  rcases h.node place with hsame | ⟨-, -, page', hgone, hlocate'⟩
  · rw [hsame]
  · rw [← page_eq_of_locate hlocate hlocate'] at hgone
    exact absurd hgone hkept

-- A directory is scanned, a file in its place is refused, and nothing in its place has no pages.
private theorem scan_cases (d : Disk) (dir : Path) :
    (∃ place, d.locate dir = .ok place ∧ d.node? place = some .directory ∧ PageFile.scan d dir =
      .ok (((d.entries place).filterMap (PageFile.numbered? dir)).mergeSort PageFile.precedes)) ∨
    ((∃ id, d.lookup dir = .ok (.file id)) ∧ ∃ e, PageFile.scan d dir = .error e) ∨
    ((∀ node, d.lookup dir ≠ .ok node) ∧ PageFile.scan d dir = .ok []) := by
  cases hlookup : d.lookup dir with
  | error e =>
      refine .inr (.inr ⟨fun _ => nofun, ?_⟩)
      simp [PageFile.scan, isPresent, hlookup]
  | ok node =>
      obtain ⟨place, hdir, hnode⟩ := lookup_eq_ok_iff.mp hlookup
      cases node with
      | directory => exact .inl ⟨place, hdir, hnode, scan_of_list (list_of_locate hdir hnode)⟩
      | file id =>
          have hpresent : d.isPresent dir = true := by
            rw [isPresent, hlookup]
          refine .inr (.inl ⟨⟨id, rfl⟩, .io dir Refusal.notDirectory.reason, ?_⟩)
          have hlist : d.list dir = .error .notDirectory := by
            simp only [list, hdir, bind, Except.bind, hnode]
            rfl
          rw [PageFile.scan, hpresent, hlist]
          rfl

-- What a scan finds are the files that count as pages.
theorem mem_scan_iff (h : PageFile.scan d dir = .ok found) :
    page ∈ found.map Prod.fst ↔ ∃ name, d.Counts dir name page := by
  rcases scan_cases d dir with ⟨place, hdir, hnode, hscan⟩ | ⟨-, e, hscan⟩ | ⟨hnone, hscan⟩
  · have hfound (p : UInt64 × Path) : p ∈ found ↔ ∃ entry ∈ d.entries place,
        PageFile.numbered? dir entry = some p := mem_of_scan (list_of_locate hdir hnode) h
    constructor
    · intro hmem
      obtain ⟨⟨page', path⟩, hpage, rfl⟩ := List.mem_map.mp hmem
      obtain ⟨⟨name, node⟩, hentry, hnumber⟩ := (hfound _).mp hpage
      cases node with
      | directory => cases hnumber
      | file id => exact ⟨name, place, id, path, hdir, hnode, mem_entries.mp hentry, hnumber⟩
    · rintro ⟨name, place', id, path, hdir', -, hfile, hnumber⟩
      cases hdir.symm.trans hdir'
      exact List.mem_map.mpr ⟨(page, path), (hfound _).mpr ⟨_, mem_entries.mpr hfile, hnumber⟩, rfl⟩
  · cases hscan.symm.trans h
  · cases hscan.symm.trans h
    refine iff_of_false List.not_mem_nil ?_
    rintro ⟨name, place, _, _, hdir, hnode, -⟩
    exact hnone _ (lookup_of_locate hdir hnode)

-- A directory that could be scanned can still be scanned.
theorem Loses.exists_scan (h : Loses dir gone d d') (hscan : PageFile.scan d dir = .ok found) :
    ∃ left, PageFile.scan d' dir = .ok left := by
  rcases scan_cases d' dir with ⟨place, -, -, hscan'⟩ | ⟨⟨id, hfile⟩, -⟩ | ⟨-, hscan'⟩
  · exact ⟨_, hscan'⟩
  · obtain ⟨place, hdir, hnode⟩ := lookup_eq_ok_iff.mp hfile
    have hlookup := lookup_of_locate (h.locate_iff.mp hdir) (h.file_of_file hnode)
    rcases scan_cases d dir with ⟨place', hdir', hnode', -⟩ | ⟨-, e, herror⟩ | ⟨hnone, -⟩
    · cases hlookup.symm.trans (lookup_of_locate hdir' hnode')
    · cases herror.symm.trans hscan
    · exact absurd hlookup (hnone _)
  · exact ⟨[], hscan'⟩

end

end Disk

end Spool
