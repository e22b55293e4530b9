import Spool.Proofs.Disk.Growth
import Spool.Proofs.Page.Mapping

namespace Spool

namespace Disk

theorem mem_entries {d : Disk} {place : Location} {name : String} {node : Node} :
    (name, node) ∈ d.entries place ↔ d.node? (name :: place) = some node := by
  have hnode : d.node? (name :: place) = d.nodes[name :: place]? := rfl
  rw [hnode, ← Std.TreeMap.mem_toList_iff_getElem?_eq_some, entries, List.mem_filterMap]
  constructor
  · rintro ⟨⟨l, node'⟩, hmem, hsome⟩
    cases l with
    | nil => cases hsome
    | cons name' outer =>
        simp only [Option.ite_none_right_eq_some, Option.some.injEq, Prod.mk.injEq] at hsome
        obtain ⟨rfl, rfl, rfl⟩ := hsome
        exact hmem
  · intro hmem
    exact ⟨(name :: place, node), hmem, by simp⟩

section

variable {d : Disk} {dir : Path} {folder : Location}

-- Different pages are in different places.
theorem page_eq_of_locate {i j : UInt64} {place : Location} (hi : d.locate (PageFile.path dir i) = .ok place)
    (hj : d.locate (PageFile.path dir j) = .ok place) : i = j := by
  obtain ⟨_, -, -, hplace⟩ := of_locate_join (PageFile.isName_name i) hi
  obtain ⟨_, -, -, hplace'⟩ := of_locate_join (PageFile.isName_name j) hj
  exact PageFile.name_injective (List.cons.inj (hplace.symm.trans hplace')).1

theorem isSome_image_iff {page : UInt64} :
    (d.image folder page).isSome ↔ ∃ id, d.node? (PageFile.name page :: folder) = some (.file id) := by
  unfold image
  split
  · next id hid => simp [hid]
  · next hnode => simpa using hnode

theorem Shelf.list (h : d.Shelf dir folder) : d.list dir = .ok (d.entries folder) :=
  list_of_locate h.locate h.directory

theorem numbered?_file_iff {name : String} {id : FileId} {found : UInt64 × Path} :
    PageFile.numbered? dir (name, .file id) = some found ↔
      checkText (dir.join name) = .ok () ∧ PageFile.index? (dir.join name) = some found.1 ∧
        found.2 = dir.join name := by
  simp only [PageFile.numbered?]
  cases checkText (dir.join name) with
  | error e => simp
  | ok u =>
      simp only [Option.map_eq_some_iff, true_and]
      constructor
      · rintro ⟨page, hindex, rfl⟩
        exact ⟨hindex, rfl⟩
      · rintro ⟨hindex, hpath⟩
        exact ⟨found.1, hindex, Prod.ext rfl hpath.symm⟩

theorem numbered?_name {page : UInt64}
    (htext : checkText (PageFile.path dir page) = .ok ()) (id : FileId) :
    PageFile.numbered? dir (PageFile.name page, .file id) =
      some (page, dir.join (PageFile.name page)) :=
  numbered?_file_iff.mpr ⟨htext, PageFile.index?_join_name dir page, rfl⟩

theorem list_eq_ok_iff {entries : List (String × Node)} : d.list dir = .ok entries ↔
    ∃ place, d.locate dir = .ok place ∧ d.node? place = some .directory ∧ entries = d.entries place := by
  constructor
  · intro h
    unfold list at h
    cases hlocate : d.locate dir with
    | error e =>
        rw [hlocate] at h
        cases h
    | ok place =>
        rw [hlocate] at h
        simp only [bind, Except.bind] at h
        split at h
        · next hnode =>
          cases h
          exact ⟨place, rfl, hnode, rfl⟩
        · cases h
        · cases h
  · rintro ⟨place, hlocate, hnode, rfl⟩
    exact list_of_locate hlocate hnode

theorem scan_of_list {entries : List (String × Node)} (h : d.list dir = .ok entries) :
    PageFile.scan d dir = .ok ((entries.filterMap (PageFile.numbered? dir)).mergeSort PageFile.precedes) := by
  obtain ⟨place, hlocate, hnode, -⟩ := list_eq_ok_iff.mp h
  have hpresent : d.isPresent dir = true := by
    rw [isPresent, lookup_of_locate hlocate hnode]
  rw [PageFile.scan, hpresent, h]
  rfl

theorem mem_of_scan {entries : List (String × Node)} {pages : List (UInt64 × Path)}
    (hlist : d.list dir = .ok entries) (hscan : PageFile.scan d dir = .ok pages) {found : UInt64 × Path} :
    found ∈ pages ↔ ∃ entry ∈ entries, PageFile.numbered? dir entry = some found := by
  cases (scan_of_list hlist).symm.trans hscan
  rw [List.mem_mergeSort, List.mem_filterMap]

-- A page file that can be found is among those that a scan finds, whatever else is in its directory.
theorem mem_scan {page : UInt64} {id : FileId} {pages : List (UInt64 × Path)} (hne : dir.text ≠ "")
    (hend : dir.endsInSlash = false) (hfile : d.lookup (PageFile.path dir page) = .ok (.file id))
    (hscan : PageFile.scan d dir = .ok pages) : page ∈ pages.map Prod.fst := by
  obtain ⟨target, hlocate, hnode⟩ := lookup_eq_file_iff.mp hfile
  obtain ⟨place, hplace, hdir, rfl⟩ := locate_of_locate_join (PageFile.isName_name page) hne hend hlocate
  refine List.mem_map.mpr ⟨(page, dir.join (PageFile.name page)), ?_, rfl⟩
  rw [mem_of_scan (list_of_locate hplace hdir) hscan]
  exact ⟨_, mem_entries.mpr hnode, numbered?_name (checkText_of_locate hlocate) id⟩

-- The names in a directory are different.
private theorem pairwise_entries (d : Disk) (place : Location) :
    (d.entries place).Pairwise fun a b => a.1 ≠ b.1 := by
  refine (Std.TreeMap.distinct_keys_toList (t := d.nodes)).filterMap _ ?_
  rintro ⟨l, node⟩ ⟨l', node'⟩ hne ⟨name, _⟩ hsome ⟨name', _⟩ hsome' hsame
  cases l with
  | nil => cases hsome
  | cons first outer =>
    cases l' with
    | nil => cases hsome'
    | cons first' outer' =>
      simp only [Option.ite_none_right_eq_some, Option.some.injEq, Prod.mk.injEq] at hsome hsome'
      obtain ⟨rfl, rfl, -⟩ := hsome
      obtain ⟨rfl, rfl, -⟩ := hsome'
      obtain rfl : first = first' := hsame
      exact hne Std.ReflCmp.compare_self

-- Whatever is taken for a page bears the name of that page.
def Proper (dir : Path) (entries : List (String × Node)) : Prop :=
  ∀ entry ∈ entries, ∀ found, PageFile.numbered? dir entry = some found →
    ∃ page id, entry = (PageFile.name page, .file id) ∧ found = (page, PageFile.path dir page)

-- As there is only one file of a name, no page comes twice.
theorem Proper.nodup (h : Proper dir (d.entries folder)) :
    (((d.entries folder).filterMap (PageFile.numbered? dir)).map Prod.fst).Nodup := by
  have hapart : (d.entries folder).Pairwise fun a b => ∀ p, PageFile.numbered? dir a = some p →
      ∀ q, PageFile.numbered? dir b = some q → p.1 ≠ q.1 := by
    refine (pairwise_entries d folder).imp_of_mem fun ha hb hne p hp q hq hsame => hne ?_
    obtain ⟨page, _, rfl, rfl⟩ := h _ ha p hp
    obtain ⟨page', _, rfl, rfl⟩ := h _ hb q hq
    exact congrArg PageFile.name hsame
  exact List.pairwise_map.mpr (hapart.filterMap _ fun a b hab p hp q hq => hab p hp q hq)

-- Directories are passed over, and what is left are page files.
theorem Shelf.proper (h : d.Shelf dir folder) (hpaged : d.Paged folder) : Proper dir (d.entries folder) := by
  rintro ⟨name, node⟩ hentry found hfound
  cases node with
  | directory => cases hfound
  | file id =>
      obtain ⟨page, rfl⟩ := hpaged name id (mem_entries.mp hentry)
      rw [numbered?_name (checkText_of_locate (h.locate_page page))] at hfound
      exact ⟨page, id, rfl, (Option.some.inj hfound).symm⟩

-- Every page file is found, once, with its path.
theorem Shelf.scan (h : d.Shelf dir folder) (hpaged : d.Paged folder) :
    ∃ pages, PageFile.scan d dir = .ok pages ∧ (pages.map Prod.fst).Nodup ∧
      (∀ page, page ∈ pages.map Prod.fst ↔ (d.image folder page).isSome) ∧
      ∀ entry ∈ pages, entry.2 = PageFile.path dir entry.1 := by
  have hproper := h.proper hpaged
  have hscan := scan_of_list h.list
  refine ⟨_, hscan, ((List.mergeSort_perm _ _).map _).nodup_iff.mpr hproper.nodup, fun page => ?_,
    fun found hmem => ?_⟩
  · rw [isSome_image_iff, List.mem_map]
    constructor
    · rintro ⟨⟨page', path⟩, hmem, rfl⟩
      obtain ⟨entry, hentry, hnumber⟩ := (mem_of_scan h.list hscan).mp hmem
      obtain ⟨page, id, rfl, hfound⟩ := hproper entry hentry _ hnumber
      cases hfound
      exact ⟨id, mem_entries.mp hentry⟩
    · rintro ⟨id, hnode⟩
      refine ⟨(page, dir.join (PageFile.name page)), (mem_of_scan h.list hscan).mpr ?_, rfl⟩
      exact ⟨_, mem_entries.mpr hnode, numbered?_name (checkText_of_locate (h.locate_page page)) id⟩
  · obtain ⟨entry, hentry, hnumber⟩ := (mem_of_scan h.list hscan).mp hmem
    obtain ⟨page, id, -, rfl⟩ := hproper entry hentry _ hnumber
    rfl

end

end Disk

end Spool
