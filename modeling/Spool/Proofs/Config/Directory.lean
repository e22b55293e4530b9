import Spool.Config.Basic
import Spool.Proofs.Path.Parts

namespace Spool.Config

-- The directory is the entry of the base path that the name stands for, and the name has no slash.
structure IsEntryOfBase (c : Config) : Prop where
  no_slash : '/' ∉ c.name.toList
  parts : c.queueDir.parts = c.basePath.parts ++ [.name c.name]

section

variable {c d : Config}

theorem exists_part_of_validate (h : c.validate = .ok ()) : ∃ part, (Path.mk c.name).parts = [part] := by
  unfold validate at h
  split at h
  · cases h
  · next hname =>
    simp only [hasNameOfOnePart, Bool.not_eq_true', Bool.not_eq_false, Bool.and_eq_true,
      decide_eq_true_eq] at hname
    exact List.length_eq_one_iff.mp hname.2

theorem parts_queueDir {part : Path.Part} (h : (Path.mk c.name).parts = [part]) :
    c.queueDir.parts = Path.goOn c.basePath.parts part :=
  c.basePath.parts_join_of_part h

theorem isEntryOfBase_of_isName (h : Path.IsName c.name) : c.IsEntryOfBase :=
  ⟨h.no_slash, parts_queueDir (Path.parts_of_isName h)⟩

theorem IsEntryOfBase.isName (h : c.IsEntryOfBase) : Path.IsName c.name := by
  apply Path.isName_of_mem_parts (p := c.queueDir)
  rw [h.parts]
  exact List.mem_append_right _ (List.mem_singleton_self _)

-- Entries of one base path are told apart by their names.
theorem IsEntryOfBase.sameParts_iff (h : c.IsEntryOfBase) (h' : d.IsEntryOfBase)
    (hbase : d.basePath = c.basePath) : d.queueDir.sameParts c.queueDir = true ↔ d.name = c.name := by
  rw [Path.sameParts, decide_eq_true_iff, h.parts, h'.parts, hbase, List.append_cancel_left_eq]
  simp

end

-- Where the directory of an accepted configuration is, when it is an entry of the base path, and which
-- of the directories that are entries of one base path are the same.
theorem directory_law {c : Config} (h : c.validate = .ok ()) :
    (∃ part, (Path.mk c.name).parts = [part] ∧
      c.queueDir.parts = Path.goOn c.basePath.parts part) ∧
    (c.IsEntryOfBase ↔ Path.IsName c.name) ∧
    ∀ d : Config, d.basePath = c.basePath → Path.IsName c.name → Path.IsName d.name →
      (d.queueDir.sameParts c.queueDir = true ↔ d.name = c.name) := by
  obtain ⟨part, hpart⟩ := exists_part_of_validate h
  refine ⟨⟨part, hpart, parts_queueDir hpart⟩, ⟨IsEntryOfBase.isName, isEntryOfBase_of_isName⟩, ?_⟩
  intro d hbase hc hd
  exact (isEntryOfBase_of_isName hc).sameParts_iff (isEntryOfBase_of_isName hd) hbase

-- Both are accepted, but only the first has a directory of its own in the base path.
theorem directory_law_dots :
    (named ⟨"/var/spool"⟩ "orders").validate = .ok () ∧ (named ⟨"/var/spool"⟩ "..").validate = .ok () ∧
      (named ⟨"/var/spool"⟩ "orders").IsEntryOfBase ∧ ¬(named ⟨"/var/spool"⟩ "..").IsEntryOfBase := by
  have horders : (named ⟨"/var/spool"⟩ "orders").validate = .ok () := rfl
  have hdots : (named ⟨"/var/spool"⟩ "..").validate = .ok () := rfl
  refine ⟨horders, hdots, (directory_law horders).2.1.mpr (by decide), fun h => ?_⟩
  exact absurd ((directory_law hdots).2.1.mp h) (by decide)

-- A slash alone is accepted as a name, and leads to the root whatever the base path is.
theorem not_isEntryOfBase_slash :
    (named ⟨"./queue_data"⟩ "/").validate = .ok () ∧ ¬(named ⟨"./queue_data"⟩ "/").IsEntryOfBase ∧
      (named ⟨"./queue_data"⟩ "/").queueDir.parts = [.root] := by
  refine ⟨rfl, fun h => ?_, rfl⟩
  exact absurd h.no_slash (by decide)

end Spool.Config
