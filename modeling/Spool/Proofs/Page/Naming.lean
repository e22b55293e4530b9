import Mathlib.Data.Finset.Sort
import Spool.Proofs.Page.Found

namespace Spool.PageFile

-- The number of a name: what is denoted between the fixed ends of page files' names.
def Spells (name : String) (n : Nat) : Prop :=
  ∃ numeral, name.toList = nameHead ++ numeral ++ nameTail ∧ Decimal.Denotes numeral n

-- Page files in increasing order of their numbers.
def inOrder (dir : Path) (pages : Finset UInt64) : List (UInt64 × Path) :=
  (pages.sort (· ≤ ·)).map fun page => (page, path dir page)

-- The files of a directory are the page files of some numbers and files that are not read as pages. There may be
-- directories of any names besides.
structure Stocked (d : Disk) (dir : Path) (entries : List (String × Node)) (pages : Finset UInt64) : Prop where
  list : d.list dir = .ok entries
  isFile : ∀ page ∈ pages, d.isFile (path dir page) = true
  others : ∀ name id, (name, Node.file id) ∈ entries →
    (∃ page ∈ pages, name = PageFile.name page) ∨ index? (dir.join name) = none

section

variable {d : Disk} {dir p q : Path} {entries listed : List (String × Node)} {pages : Finset UInt64}
  {found : List (UInt64 × Path)} {name : String} {i j : UInt64} {n : Nat}

theorem numeral?_eq_some_iff {cs numeral : List Char} :
    numeral? cs = some numeral ↔ cs = nameHead ++ numeral ++ nameTail := by
  rw [numeral?, Option.bind_eq_some_iff]
  simp only [List.isPrefixOf?_eq_some_iff_append_eq, List.isSuffixOf?_eq_some_iff_append_eq]
  constructor
  · rintro ⟨rest, rfl, rfl⟩
    rw [List.append_assoc]
  · rintro rfl
    exact ⟨numeral ++ nameTail, (List.append_assoc _ _ _).symm, rfl⟩

theorem indexOfName?_eq_some_iff : indexOfName? name = some i ↔ Spells name i.toNat := by
  rw [indexOfName?, Option.bind_eq_some_iff]
  simp only [numeral?_eq_some_iff, Decimal.toWord?_eq_some_iff]
  rfl

theorem indexOfName?_of_spells (h : Spells name n) :
    indexOfName? name = if n < UInt64.size then some (UInt64.ofNat n) else none := by
  obtain ⟨numeral, hname, hdenotes⟩ := h
  rw [indexOfName?, numeral?_eq_some_iff.mpr hname, Option.bind_some, Decimal.toWord?_of_denotes hdenotes]

theorem index?_eq_some_iff : index? p = some i ↔ ∃ name, p.fileName? = some name ∧ Spells name i.toNat := by
  rw [index?, Option.bind_eq_some_iff]
  simp only [indexOfName?_eq_some_iff]

theorem index?_eq_none_of_spells (hname : p.fileName? = some name) (h : Spells name n) (hn : 2 ^ 64 ≤ n) :
    index? p = none := by
  have hlarge : ¬n < UInt64.size := Nat.not_lt.mpr hn
  rw [index?, hname, Option.bind_some, indexOfName?_of_spells h, if_neg hlarge]

-- Slashes and dots that make no difference to a path make none to its number.
theorem index?_of_sameParts (h : p.sameParts q = true) : index? p = index? q := by
  have hparts : p.parts = q.parts := of_decide_eq_true h
  rw [index?, index?, Path.fileName?, Path.fileName?, hparts]

theorem sameParts_path_iff : (path dir i).sameParts (path dir j) = true ↔ i = j := by
  constructor
  · intro h
    have hindex := index?_of_sameParts h
    rw [path, path, index?_join_name, index?_join_name] at hindex
    exact Option.some.inj hindex
  · rintro rfl
    exact decide_eq_true rfl

theorem mem_inOrder {entry : UInt64 × Path} :
    entry ∈ inOrder dir pages ↔ ∃ page ∈ pages, entry = (page, path dir page) := by
  simp only [inOrder, List.mem_map, Finset.mem_sort, eq_comm]

theorem pairwise_inOrder : (inOrder dir pages).Pairwise fun a b => a.1 ≤ b.1 :=
  List.Pairwise.map _ (fun _ _ h => h) (pages.pairwise_sort (· ≤ ·))

theorem nodup_inOrder : (inOrder dir pages).Nodup :=
  (pages.sort_nodup _).map fun _ _ h => congrArg Prod.fst h

theorem precedes_iff {a b : UInt64 × Path} :
    precedes a b = true ↔ a.1 < b.1 ∨ a.1 = b.1 ∧ a.2.text ≤ b.2.text := by
  simp [precedes]

theorem precedes_trans (a b c : UInt64 × Path) (hab : precedes a b = true) (hbc : precedes b c = true) :
    precedes a c = true := by
  rw [precedes_iff] at *
  rcases hab with hab | ⟨hab, htext⟩
  · rcases hbc with hbc | ⟨hbc, -⟩
    · exact .inl (UInt64.lt_trans hab hbc)
    · exact .inl (hbc ▸ hab)
  · rcases hbc with hbc | ⟨hbc, htext'⟩
    · exact .inl (hab ▸ hbc)
    · exact .inr ⟨hab.trans hbc, String.le_trans htext htext'⟩

theorem precedes_total (a b : UInt64 × Path) : (precedes a b || precedes b a) = true := by
  rw [Bool.or_eq_true, precedes_iff, precedes_iff]
  by_cases heq : a.1 = b.1
  · exact (String.le_total a.2.text b.2.text).imp (fun htext => .inr ⟨heq, htext⟩)
      fun htext => .inr ⟨heq.symm, htext⟩
  · exact (UInt64.lt_or_lt_of_ne heq).imp .inl .inl

theorem pairwise_mergeSort_precedes (found : List (UInt64 × Path)) :
    (found.mergeSort precedes).Pairwise fun a b => a.1 ≤ b.1 := by
  refine (List.pairwise_mergeSort precedes_trans precedes_total found).imp fun h => ?_
  rcases precedes_iff.mp h with hlt | ⟨heq, -⟩
  · exact UInt64.le_of_lt hlt
  · exact UInt64.le_of_eq heq

namespace Stocked

theorem proper (h : Stocked d dir entries pages) : Disk.Proper dir entries := by
  rintro ⟨name, node⟩ hentry found hnumber
  cases node with
  | directory => cases hnumber
  | file id =>
      obtain ⟨-, hindex, hpath⟩ := Disk.numbered?_file_iff.mp hnumber
      rcases h.others name id hentry with ⟨page, -, rfl⟩ | hnone
      · rw [index?_join_name] at hindex
        exact ⟨page, id, rfl, Prod.ext (Option.some.inj hindex).symm hpath⟩
      · cases hnone.symm.trans hindex

theorem mem_pages {id : FileId} (h : Stocked d dir entries pages) (hentry : (PageFile.name i, .file id) ∈ entries) :
    i ∈ pages := by
  rcases h.others _ id hentry with ⟨page, hpage, hname⟩ | hnone
  · rwa [name_injective hname]
  · cases hnone.symm.trans (index?_join_name dir i)

theorem exists_entry (h : Stocked d dir entries pages) (hpage : i ∈ pages) :
    ∃ id, (PageFile.name i, .file id) ∈ entries ∧ Disk.checkText (path dir i) = .ok () := by
  obtain ⟨folder, hdir, -, rfl⟩ := Disk.list_eq_ok_iff.mp h.list
  obtain ⟨id, hfile⟩ := Disk.isFile_iff.mp (h.isFile i hpage)
  obtain ⟨place, hlocate, hnode⟩ := Disk.lookup_eq_file_iff.mp hfile
  obtain ⟨folder', hwalk, -, rfl⟩ := Disk.of_locate_join (isName_name i) hlocate
  cases (Disk.walk_of_locate hdir).symm.trans hwalk
  exact ⟨id, Disk.mem_entries.mpr hnode, Disk.checkText_of_locate hlocate⟩

theorem mem_numbered_iff (h : Stocked d dir entries pages) {entry : UInt64 × Path} :
    entry ∈ entries.filterMap (numbered? dir) ↔ entry ∈ inOrder dir pages := by
  rw [List.mem_filterMap, mem_inOrder]
  constructor
  · rintro ⟨place, hplace, hnumber⟩
    obtain ⟨page, id, rfl, rfl⟩ := h.proper place hplace entry hnumber
    exact ⟨page, h.mem_pages hplace, rfl⟩
  · rintro ⟨page, hpage, rfl⟩
    obtain ⟨id, hentry, htext⟩ := h.exists_entry hpage
    exact ⟨_, hentry, Disk.numbered?_name htext id⟩

theorem perm_inOrder (h : Stocked d dir entries pages) :
    (entries.filterMap (numbered? dir)).Perm (inOrder dir pages) := by
  obtain ⟨folder, -, -, rfl⟩ := Disk.list_eq_ok_iff.mp h.list
  have hnodup := h.proper.nodup.of_map
  exact (List.perm_ext_iff_of_nodup hnodup nodup_inOrder).mpr fun _ => h.mem_numbered_iff

-- Numbers order page files fully where no two files have one number.
theorem eq_inOrder (h : Stocked d dir entries pages) (hlisted : listed.Perm entries)
    (hfound : found.Perm (listed.filterMap (numbered? dir))) (hsorted : found.Pairwise fun a b => a.1 ≤ b.1) :
    found = inOrder dir pages := by
  have hperm := (hfound.trans (hlisted.filterMap _)).trans h.perm_inOrder
  refine List.Perm.eq_of_pairwise (fun a b ha hb hab hba => ?_) hsorted pairwise_inOrder hperm
  obtain ⟨page, -, rfl⟩ := mem_inOrder.mp (hperm.mem_iff.mp ha)
  obtain ⟨page', -, rfl⟩ := mem_inOrder.mp hb
  obtain rfl : page = page' := UInt64.le_antisymm hab hba
  rfl

theorem scan (h : Stocked d dir entries pages) : PageFile.scan d dir = .ok (inOrder dir pages) := by
  rw [Disk.scan_of_list h.list]
  exact congrArg _ (h.eq_inOrder (.refl _) (List.mergeSort_perm _ _) (pairwise_mergeSort_precedes _))

end Stocked

end

-- A path gives back the number that it was made from, and a number that no word can hold is never read. So the page
-- files of a directory are found once each and in order, however it is listed and files of one number are sorted.
theorem naming_law :
    (∀ dir i, index? (path dir i) = some i) ∧
    (∀ dir i j, (path dir i).sameParts (path dir j) = true ↔ i = j) ∧
    (∀ p i, index? p = some i ↔ ∃ name, p.fileName? = some name ∧ Spells name i.toNat) ∧
    (∀ p name n, p.fileName? = some name → Spells name n → 2 ^ 64 ≤ n → index? p = none) ∧
    ∀ d dir entries pages, Stocked d dir entries pages → scan d dir = .ok (inOrder dir pages) ∧
      ∀ (listed : List (String × Node)) (found : List (UInt64 × Path)), listed.Perm entries →
        found.Perm (listed.filterMap (numbered? dir)) → (found.Pairwise fun a b => a.1 ≤ b.1) →
        found = inOrder dir pages :=
  ⟨index?_join_name, fun _ _ _ => sameParts_path_iff, fun _ _ => index?_eq_some_iff,
    fun _ _ _ => index?_eq_none_of_spells, fun _ _ _ _ h => ⟨h.scan, fun _ _ => h.eq_inOrder⟩⟩

-- Page files that were made in no order, a directory with the name of one, and files with other names.
def mixed : Disk :=
  ["page-10.dat", "notes.txt", "page-2.dat", "page-18446744073709551616.dat", "page-7.dat"].foldl
    (fun d name => (d.addFile [name, "spool"]).1)
    ((Disk.empty.addDirectory ["spool"]).addDirectory ["page-3.dat", "spool"])

def mixedEntries : List (String × Node) :=
  [("notes.txt", .file 1), ("page-10.dat", .file 0), ("page-18446744073709551616.dat", .file 3),
    ("page-2.dat", .file 2), ("page-3.dat", .directory), ("page-7.dat", .file 4)]

theorem stocked_mixed : Stocked mixed ⟨"/spool"⟩ mixedEntries {2, 7, 10} where
  list := rfl
  isFile page hpage := by
    simp only [Finset.mem_insert, Finset.mem_singleton] at hpage
    rcases hpage with rfl | rfl | rfl <;> decide
  others name id hentry := by
    have hnames : ∀ entry ∈ mixedEntries, entry.2 = .directory ∨ entry.1 ∈ [2, 7, 10].map PageFile.name ∨
        index? (Path.join ⟨"/spool"⟩ entry.1) = none := by decide
    refine ((hnames _ hentry).resolve_left nofun).imp_left fun hname => ?_
    obtain ⟨page, hpage, rfl⟩ := List.mem_map.mp hname
    exact ⟨page, by simpa using hpage, rfl⟩

-- The number past the largest word is read off no name, and the files come by number and not by name.
theorem naming_law_mixed :
    (Spells "page-18446744073709551616.dat" 18446744073709551616 ∧
      index? ⟨"/spool/page-18446744073709551616.dat"⟩ = none) ∧
    Stocked mixed ⟨"/spool"⟩ mixedEntries {2, 7, 10} ∧
    scan mixed ⟨"/spool"⟩ =
      .ok [(2, ⟨"/spool/page-2.dat"⟩), (7, ⟨"/spool/page-7.dat"⟩), (10, ⟨"/spool/page-10.dat"⟩)] := by
  have hspells : Spells "page-18446744073709551616.dat" 18446744073709551616 :=
    ⟨Nat.toDigits 10 18446744073709551616, by decide, Decimal.denotes_toDigits _⟩
  obtain ⟨-, -, -, hlarge, hstocked⟩ := naming_law
  obtain ⟨hscan, hany⟩ := hstocked _ _ _ _ stocked_mixed
  refine ⟨⟨hspells, hlarge _ _ _ (by decide) hspells (by decide)⟩, stocked_mixed, ?_⟩
  -- The same list comes out if the directory is listed backwards.
  have hbackwards := hany mixedEntries.reverse
    [(2, ⟨"/spool/page-2.dat"⟩), (7, ⟨"/spool/page-7.dat"⟩), (10, ⟨"/spool/page-10.dat"⟩)]
    (List.reverse_perm _) (by decide) (by decide)
  rw [hscan, hbackwards]

end Spool.PageFile
