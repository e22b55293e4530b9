import Spool.Proofs.Cache.Delete

namespace Spool

namespace Image

-- Which pages are there, all of one size.
structure Consists (img : Image) (size : Nat) (pages : UInt64 → Prop) : Prop where
  isSome_iff : ∀ page, (img page).isSome ↔ pages page
  size_eq : ∀ page s, img page = some s → s.size = size

section

variable {img : Image} {size : Nat} {pages pages' : UInt64 → Prop} {page : UInt64} {s : Sheet}

theorem Consists.congr (h : img.Consists size pages) (hpages : ∀ page, pages page ↔ pages' page) :
    img.Consists size pages' :=
  ⟨fun page => (h.isSome_iff page).trans (hpages page), h.size_eq⟩

theorem consists_of_none (h : ∀ page, img page = none) (size : Nat) :
    img.Consists size fun _ => False where
  isSome_iff page := by simp [h]
  size_eq page s hpage := by
    rw [h] at hpage
    cases hpage

theorem Consists.set (h : img.Consists size pages) (hsize : s.size = size) (page : UInt64) :
    (img.set page s).Consists size fun other => other = page ∨ pages other where
  isSome_iff other := by
    unfold Image.set
    split
    · next hother => simp [hother]
    · next hother => simp [hother, h.isSome_iff]
  size_eq other t hother := by
    unfold Image.set at hother
    split at hother
    · cases hother
      exact hsize
    · exact h.size_eq other t hother

-- A page is mapped at the size that all of them have.
theorem Consists.size_mapped (h : img.Consists size pages) (page : UInt64) :
    (img.mapped size page).size = size := by
  show max (img.sheet page).size size = size
  unfold sheet
  cases hpage : img page with
  | none => exact Nat.max_eq_right (Nat.zero_le _)
  | some s =>
      rw [Option.getD_some, h.size_eq page s hpage]
      exact Nat.max_self _

theorem Consists.write (h : img.Consists size pages) (page : UInt64) (position : Nat) (data : Bytes) :
    (img.write size page position data).Consists size fun other => other = page ∨ pages other :=
  h.set (s := (img.mapped size page).write position data) (h.size_mapped page) page

private theorem Consists.of_mem (h : img.Consists size fun other => other = page ∨ pages other)
    (hpage : pages page) : img.Consists size pages :=
  h.congr fun _ => or_iff_right_of_imp fun hother => hother ▸ hpage

-- Nothing comes of what is done with a page that is there.
theorem Consists.touch (h : img.Consists size pages) (hpage : pages page) :
    (img.touch size page).Consists size pages :=
  (h.set (h.size_mapped page) page).of_mem hpage

theorem Consists.setWord (h : img.Consists size pages) (hpage : pages page) (position : Nat)
    (value : UInt64) : (img.setWord size page position value).Consists size pages :=
  (h.set (s := (img.mapped size page).setWord position value) (h.size_mapped page) page).of_mem hpage

theorem Consists.without (h : img.Consists size pages) (asked : UInt64 → Bool) :
    (img.without asked).Consists size fun page => pages page ∧ asked page = false where
  isSome_iff page := by
    unfold Image.without
    cases asked page with
    | true => simp
    | false => simp [h.isSome_iff]
  size_eq page s hpage := by
    unfold Image.without at hpage
    split at hpage
    · cases hpage
    · exact h.size_eq page s hpage

end

end Image

namespace Cache

theorem eq_singleton_of_nodup {l : List α} {a : α} (hnodup : l.Nodup) (hmem : ∀ x, x ∈ l ↔ x = a) :
    l = [a] := by
  have hperm := List.perm_ext_iff_of_nodup hnodup (List.pairwise_singleton _ a)
  exact List.perm_singleton.mp (hperm.mpr fun x => (hmem x).trans List.mem_singleton.symm)

section

variable {c : Cache} {d : Disk} {dir : Path} {folder : Location} {size : Nat}

-- A page that is not there takes no room.
private theorem fileSize_path (h : d.Houses dir folder) (page : UInt64) :
    fileSize d (PageFile.path dir page) = ((d.image folder).sheet page).size := by
  have hlocate : d.locate (PageFile.path dir page) = _ := h.locate_page page
  rcases h.is_folder.file_or_none (PageFile.name page) with hnode | ⟨id, hnode⟩
  · rw [fileSize, Disk.lookup_of_none hlocate hnode, Image.sheet, Disk.image_eq_none hnode]
    rfl
  · rw [fileSize, Disk.lookup_of_locate hlocate hnode, Image.sheet, Disk.image_eq_some hnode]
    rfl

private theorem foldr_fileSize {pages : List (UInt64 × Path)}
    (h : ∀ entry ∈ pages, fileSize d entry.2 = size) :
    pages.foldr (fun page total => fileSize d page.2 + total) 0 = pages.length * size := by
  induction pages with
  | nil => exact (Nat.zero_mul size).symm
  | cons entry pages ih =>
      rw [List.foldr_cons, ih fun other hother => h other (List.mem_cons_of_mem _ hother),
        h entry List.mem_cons_self, List.length_cons, Nat.succ_mul, Nat.add_comm]

theorem exists_pages (h : c.Sound d folder)
    (hsize : ∀ page s, d.image folder page = some s → s.size = size) :
    ∃ pages, c.existingIndexes d = .ok pages ∧ pages.Nodup ∧
      (∀ page, page ∈ pages ↔ (d.image folder page).isSome) ∧
      c.diskUsage d = .ok (pages.length * size) := by
  obtain ⟨pages, hscan, hnodup, hmem, hpaths⟩ := h.houses.shelf.scan h.houses.is_folder.paged
  refine ⟨pages.map Prod.fst, ?_, hnodup, hmem, ?_⟩
  · rw [existingIndexes, hscan]
    rfl
  · have hsizes : ∀ entry ∈ pages, fileSize d entry.2 = size := by
      intro entry hentry
      have hsome := (hmem entry.1).mp (List.mem_map_of_mem hentry)
      obtain ⟨s, hs⟩ := Option.isSome_iff_exists.mp hsome
      rw [hpaths entry hentry, fileSize_path h.houses, Image.sheet, hs]
      exact hsize entry.1 s hs
    rw [diskUsage, hscan, List.length_map, ← foldr_fileSize hsizes]
    rfl

end

end Cache

end Spool
