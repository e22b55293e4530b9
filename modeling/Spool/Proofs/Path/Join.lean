import Spool.Page.File

namespace Spool

namespace Path

-- What one more step of a path can be: something to look up in a directory.
structure IsName (s : String) : Prop where
  ne_empty : s ≠ ""
  no_slash : '/' ∉ s.toList
  ne_dot : s ≠ "."
  ne_dots : s ≠ ".."

instance (s : String) : Decidable (IsName s) :=
  decidable_of_iff (s ≠ "" ∧ '/' ∉ s.toList ∧ s ≠ "." ∧ s ≠ "..")
    ⟨fun ⟨h₁, h₂, h₃, h₄⟩ => ⟨h₁, h₂, h₃, h₄⟩, fun ⟨h₁, h₂, h₃, h₄⟩ => ⟨h₁, h₂, h₃, h₄⟩⟩

theorem IsName.toList_ne_nil {s : String} (h : IsName s) : s.toList ≠ [] := by
  intro hnil
  exact h.ne_empty (String.toList_eq_nil_iff.mp hnil)

theorem IsName.isAbsolute_eq_false {s : String} (h : IsName s) : (Path.mk s).isAbsolute = false := by
  unfold isAbsolute
  cases hs : s.toList with
  | nil => rfl
  | cons c cs =>
      have hc : c ≠ '/' := by
        rintro rfl
        exact h.no_slash (by simp [hs])
      simpa using hc

section

variable (p : Path) {r : String} (h : (Path.mk r).isAbsolute = false)

include h

-- The three forms of a joined path are two: with a slash of its own, or behind what stands there.
theorem join_of_relative :
    p.join r = ⟨p.text ++ r⟩ ∧ (p.text = "" ∨ p.endsInSlash = true) ∨
      p.join r = ⟨p.text ++ "/" ++ r⟩ ∧ p.text ≠ "" := by
  unfold join
  rw [h]
  simp only [Bool.false_eq_true, if_false]
  by_cases hend : p.text = "" ∨ p.endsInSlash = true
  · exact Or.inl ⟨by rw [if_pos hend], hend⟩
  · exact Or.inr ⟨by rw [if_neg hend], fun hempty => hend (Or.inl hempty)⟩

end

theorem join_of_isName (p : Path) {s : String} (h : IsName s) :
    p.join s = ⟨p.text ++ s⟩ ∧ (p.text = "" ∨ p.endsInSlash = true) ∨
      p.join s = ⟨p.text ++ "/" ++ s⟩ :=
  (p.join_of_relative h.isAbsolute_eq_false).imp_right And.left

theorem exists_append_slash {p : Path} (h : p.endsInSlash = true) :
    ∃ left, p.text.toList = left ++ ['/'] := by
  have hlast : p.text.toList.getLast? = some '/' := by simpa [endsInSlash] using h
  exact List.getLast?_eq_some_iff.mp hlast

theorem steps_append_slash (left right : List Char) :
    ((stretches (left ++ '/' :: right)).filter (· ≠ [])).map String.ofList =
      ((stretches left).filter (· ≠ [])).map String.ofList ++
        ((stretches right).filter (· ≠ [])).map String.ofList := by
  rw [stretches_append, List.filter_append, List.map_append]

-- The steps of a path that is not absolute come behind those that are there.
theorem steps_join_of_relative (p : Path) {r : String} (h : (Path.mk r).isAbsolute = false) :
    (p.join r).steps = p.steps ++ (Path.mk r).steps := by
  rcases p.join_of_relative h with ⟨hjoin, hempty | hend⟩ | ⟨hjoin, -⟩
  · rw [hjoin, hempty]
    simp [steps, hempty, stretches]
  · obtain ⟨left, hleft⟩ := exists_append_slash hend
    have htext : (p.text ++ r).toList = left ++ '/' :: r.toList := by simp [hleft]
    have hsteps : p.steps = ((stretches left).filter (· ≠ [])).map String.ofList := by
      unfold steps
      rw [hleft, steps_append_slash]
      simp [stretches]
    rw [hjoin, hsteps]
    simp only [steps, htext]
    exact steps_append_slash left r.toList
  · have htext : (p.text ++ "/" ++ r).toList = p.text.toList ++ '/' :: r.toList := by simp
    rw [hjoin]
    simp only [steps, htext]
    exact steps_append_slash p.text.toList r.toList

theorem IsName.steps {s : String} (h : IsName s) : (Path.mk s).steps = [s] := by
  unfold Path.steps
  rw [stretches_of_no_slash h.no_slash]
  simp [h.toList_ne_nil]

theorem steps_join (p : Path) {s : String} (h : IsName s) : (p.join s).steps = p.steps ++ [s] := by
  rw [p.steps_join_of_relative h.isAbsolute_eq_false, h.steps]

theorem partOf_of_isName {s : String} (h : IsName s) : partOf s = .name s := by
  simp [partOf, h.ne_dot, h.ne_dots]

theorem fileName?_join (p : Path) {s : String} (h : IsName s) : (p.join s).fileName? = some s := by
  have hall : (p.join s).steps.map partOf = p.steps.map partOf ++ [.name s] := by
    rw [steps_join p h, List.map_append, List.map_singleton, partOf_of_isName h]
  have hlast : (p.join s).parts.getLast? = some (.name s) := by
    unfold parts
    rw [hall]
    by_cases habs : (p.join s).isAbsolute = true
    · simp [habs, List.filter_append, List.getLast?_cons]
    · rw [if_neg habs]
      cases p.steps.map partOf with
      | nil => rfl
      | cons first rest =>
          simp [List.filter_append, List.getLast?_cons]
  simp [fileName?, hlast]

theorem endsInSlash_join (p : Path) {s : String} (h : IsName s) : (p.join s).endsInSlash = false := by
  have hlast : ∀ left : List Char, (left ++ s.toList).getLast? ≠ some '/' := by
    intro left hslash
    have hc := List.getLast?_eq_some_getLast h.toList_ne_nil
    rw [List.getLast?_append, hc, Option.some_or] at hslash
    exact h.no_slash (List.mem_of_getLast? (hc.trans hslash))
  have hform : ∃ left, (p.join s).text.toList = left ++ s.toList := by
    rcases join_of_isName p h with ⟨hjoin, -⟩ | hjoin
    · exact ⟨p.text.toList, by simp [hjoin]⟩
    · exact ⟨p.text.toList ++ ['/'], by simp [hjoin]⟩
  obtain ⟨left, hleft⟩ := hform
  unfold endsInSlash
  rw [hleft]
  exact decide_eq_false (hlast left)

theorem text_join_ne_empty (p : Path) {s : String} (h : IsName s) : (p.join s).text ≠ "" := by
  have hsteps := steps_join p h
  intro hempty
  rw [show p.join s = ⟨""⟩ from congrArg Path.mk hempty] at hsteps
  simp [steps, stretches] at hsteps

-- A path grows by the name and a slash at most, and holds no characters but its own and the name's.
theorem utf8ByteSize_join_le (p : Path) {s : String} (h : IsName s) :
    (p.join s).text.utf8ByteSize ≤ p.text.utf8ByteSize + 1 + s.utf8ByteSize := by
  rcases join_of_isName p h with ⟨hjoin, -⟩ | hjoin
  · rw [hjoin]
    simp only [String.utf8ByteSize_append]
    omega
  · rw [hjoin]
    simp only [String.utf8ByteSize_append]
    have hslash : "/".utf8ByteSize = 1 := by decide
    omega

theorem not_mem_join {p : Path} {s : String} (h : IsName s) {c : Char} (hc : c ≠ '/')
    (hp : c ∉ p.text.toList) (hs : c ∉ s.toList) : c ∉ (p.join s).text.toList := by
  rcases join_of_isName p h with ⟨hjoin, -⟩ | hjoin
  · rw [hjoin]
    simp [hp, hs]
  · rw [hjoin]
    simp [hp, hs, hc]

end Path

end Spool
