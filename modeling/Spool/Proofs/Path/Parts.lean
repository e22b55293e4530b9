import Spool.Proofs.Path.Join

namespace Spool.Path

section

variable {p : Path} {r s : String} {part : Part}

-- What is left of some steps behind the first part of a path.
private def inner (steps : List String) : List Part :=
  (steps.map partOf).filter (· ≠ .current)

private theorem inner_append (steps more : List String) :
    inner (steps ++ more) = inner steps ++ inner more := by
  rw [inner, List.map_append, List.filter_append, inner, inner]

private theorem parts_of_isAbsolute (h : p.isAbsolute = true) : p.parts = .root :: inner p.steps := by
  unfold parts
  rw [if_pos h]
  rfl

private theorem parts_of_steps_eq_nil (h : p.isAbsolute = false) (hsteps : p.steps = []) :
    p.parts = [] := by
  unfold parts
  rw [if_neg (by simp [h]), hsteps]
  rfl

private theorem parts_of_steps_eq_cons {steps : List String} (h : p.isAbsolute = false)
    (hsteps : p.steps = s :: steps) : p.parts = partOf s :: inner steps := by
  unfold parts
  rw [if_neg (by simp [h]), hsteps]
  rfl

theorem isAbsolute_join_of_relative (p : Path) (h : (Path.mk r).isAbsolute = false) :
    (p.join r).isAbsolute = p.isAbsolute := by
  have hlonger : ∀ more, p.text ≠ "" → (Path.mk (p.text ++ more)).isAbsolute = p.isAbsolute := by
    intro more hne
    obtain ⟨c, cs, htext⟩ := List.exists_cons_of_ne_nil (mt String.toList_eq_nil_iff.mp hne)
    simp [isAbsolute, htext]
  by_cases hempty : p.text = ""
  · have hjoin : p.join r = ⟨r⟩ := by
      unfold join
      simp [h, hempty]
    rw [hjoin, h]
    simp [isAbsolute, hempty]
  · rcases p.join_of_relative h with ⟨hjoin, -⟩ | ⟨hjoin, -⟩
    · rw [hjoin, hlonger _ hempty]
    · rw [hjoin, String.append_assoc, hlonger _ hempty]

-- Where one part leads from a path.
def goOn (parts : List Part) : Part → List Part
  | .root => [.root]
  | .current => if parts = [] then [.current] else parts
  | part => parts ++ [part]

private theorem partOf_ne_root (s : String) : partOf s ≠ .root := by
  unfold partOf
  split
  · simp
  · split <;> simp

-- A relative path of one part: the first step is that part, and nothing but single dots follow it.
private theorem exists_steps_of_part (h : (Path.mk r).isAbsolute = false)
    (hpart : (Path.mk r).parts = [part]) :
    ∃ first rest, (Path.mk r).steps = first :: rest ∧ partOf first = part ∧ inner rest = [] := by
  cases hsteps : (Path.mk r).steps with
  | nil =>
      rw [parts_of_steps_eq_nil h hsteps] at hpart
      cases hpart
  | cons first rest =>
      rw [parts_of_steps_eq_cons h hsteps] at hpart
      injection hpart with hfirst hrest
      exact ⟨first, rest, rfl, hfirst, hrest⟩

private theorem inner_of_rest {first : String} {rest : List String} (hrest : inner rest = []) :
    inner (first :: rest) = if partOf first = .current then [] else [partOf first] := by
  show ((partOf first :: rest.map partOf).filter (· ≠ .current)) = _
  rw [List.filter_cons, show (rest.map partOf).filter (· ≠ .current) = [] from hrest]
  by_cases hdot : partOf first = .current <;> simp [hdot]

-- A part that is not a single dot comes behind the others.
private theorem append_inner {first : String} {rest : List String} (hrest : inner rest = [])
    {parts : List Part} (hne : parts ≠ []) :
    parts ++ inner (first :: rest) = goOn parts (partOf first) := by
  rw [inner_of_rest hrest]
  cases hfirst : partOf first with
  | root => exact absurd hfirst (partOf_ne_root first)
  | current => simp [goOn, hne]
  | parent => simp [goOn]
  | name s => simp [goOn]

private theorem parts_join_of_steps (p : Path) {first : String} {rest : List String}
    (habs : (Path.mk r).isAbsolute = false) (hsteps : (Path.mk r).steps = first :: rest)
    (hrest : inner rest = []) : (p.join r).parts = goOn p.parts (partOf first) := by
  have hall := p.steps_join_of_relative habs
  have hside := p.isAbsolute_join_of_relative habs
  rw [hsteps] at hall
  cases hp : p.isAbsolute with
  | true =>
      rw [parts_of_isAbsolute (hside.trans hp), hall, inner_append, parts_of_isAbsolute hp,
        ← List.cons_append]
      exact append_inner hrest (List.cons_ne_nil _ _)
  | false =>
      cases hbase : p.steps with
      | nil =>
          rw [hbase, List.nil_append] at hall
          rw [parts_of_steps_eq_cons (hside.trans hp) hall, parts_of_steps_eq_nil hp hbase, hrest]
          cases hfirst : partOf first with
          | root => exact absurd hfirst (partOf_ne_root first)
          | _ => rfl
      | cons step steps =>
          rw [hbase, List.cons_append] at hall
          rw [parts_of_steps_eq_cons (hside.trans hp) hall, inner_append,
            parts_of_steps_eq_cons hp hbase, ← List.cons_append]
          exact append_inner hrest (List.cons_ne_nil _ _)

theorem parts_join_of_part (p : Path) (hpart : (Path.mk r).parts = [part]) :
    (p.join r).parts = goOn p.parts part := by
  cases habs : (Path.mk r).isAbsolute with
  | true =>
      have hjoin : p.join r = ⟨r⟩ := if_pos habs
      rw [parts_of_isAbsolute habs] at hpart
      injection hpart with hroot hnone
      rw [hjoin, parts_of_isAbsolute habs, hnone, ← hroot]
      rfl
  | false =>
      obtain ⟨first, rest, hsteps, rfl, hrest⟩ := exists_steps_of_part habs hpart
      exact p.parts_join_of_steps habs hsteps hrest

private theorem not_mem_of_mem_stretches {cs stretch : List Char} (h : stretch ∈ stretches cs) :
    '/' ∉ stretch := by
  induction cs generalizing stretch with
  | nil => simp_all [stretches]
  | cons c cs ih =>
      rw [stretches] at h
      cases hrest : stretches cs with
      | nil => exact absurd hrest (stretches_ne_nil cs)
      | cons s ss =>
          rw [hrest] at ih h
          by_cases hc : c = '/'
          · simp only [hc, if_true] at h
            rcases List.mem_cons.mp h with rfl | h
            · exact List.not_mem_nil
            · exact ih h
          · simp only [hc, if_false] at h
            rcases List.mem_cons.mp h with rfl | h
            · have hs := ih (List.mem_cons_self (a := s))
              simp [Ne.symm hc, hs]
            · exact ih (List.mem_cons_of_mem _ h)

private theorem exists_step_of_mem_parts (h : .name s ∈ p.parts) :
    ∃ step ∈ p.steps, partOf step = .name s := by
  unfold parts at h
  cases hp : p.isAbsolute with
  | true =>
      rw [if_pos hp] at h
      rcases List.mem_cons.mp h with h | h
      · cases h
      · exact List.mem_map.mp (List.mem_filter.mp h).1
  | false =>
      rw [if_neg (by simp [hp])] at h
      cases hsteps : p.steps with
      | nil =>
          rw [hsteps] at h
          cases h
      | cons first rest =>
          rw [hsteps] at h
          rcases List.mem_cons.mp h with h | h
          · exact ⟨first, List.mem_cons_self, h.symm⟩
          · obtain ⟨step, hstep, hname⟩ := List.mem_map.mp (List.mem_filter.mp h).1
            exact ⟨step, List.mem_cons_of_mem _ hstep, hname⟩

private theorem of_partOf_eq_name {step : String} (h : partOf step = .name s) :
    step = s ∧ step ≠ "." ∧ step ≠ ".." := by
  unfold partOf at h
  split at h
  · cases h
  · next hdot =>
    split at h
    · cases h
    · next hdots =>
      injection h with hsame
      exact ⟨hsame, hdot, hdots⟩

-- The names among the parts of a path are names indeed.
theorem isName_of_mem_parts (h : .name s ∈ p.parts) : IsName s := by
  obtain ⟨step, hmem, hname⟩ := exists_step_of_mem_parts h
  obtain ⟨rfl, hdot, hdots⟩ := of_partOf_eq_name hname
  obtain ⟨stretch, hstretch, rfl⟩ := List.mem_map.mp hmem
  obtain ⟨hin, hne⟩ := List.mem_filter.mp hstretch
  refine ⟨fun hempty => ?_, ?_, hdot, hdots⟩
  · rw [← String.toList_eq_nil_iff, String.toList_ofList] at hempty
    simp [hempty] at hne
  · rw [String.toList_ofList]
    exact not_mem_of_mem_stretches hin

theorem parts_of_isName (h : IsName s) : (Path.mk s).parts = [.name s] := by
  rw [parts_of_steps_eq_cons h.isAbsolute_eq_false h.steps, partOf_of_isName h]
  rfl

end

end Spool.Path
