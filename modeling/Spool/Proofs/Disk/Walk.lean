import Spool.Disk.Basic
import Spool.Proofs.Path.Join

namespace Spool.Disk

theorem expectDirectory_eq_ok_iff {d : Disk} {place : Location} :
    d.expectDirectory place = .ok () ↔ d.node? place = some .directory := by
  unfold expectDirectory
  split <;> simp_all

-- Where a step leads if it may be taken at all.
private def stepTo (place : Location) (step : String) : Except Refusal Location :=
  if step = "." then .ok place
  else if step = ".." then .ok place.tail
  else if maxNameBytes < step.utf8ByteSize then .error .nameTooLong
  else .ok (step :: place)

private theorem advance_of_directory {d : Disk} {place : Location}
    (h : d.node? place = some .directory) (step : String) :
    d.advance place step = stepTo place step := by
  unfold advance
  rw [expectDirectory_eq_ok_iff.mpr h]
  rfl

theorem directory_of_advance {d : Disk} {place target : Location} {step : String}
    (h : d.advance place step = .ok target) : d.node? place = some .directory := by
  rw [← expectDirectory_eq_ok_iff]
  unfold advance at h
  cases hdir : d.expectDirectory place with
  | ok => rfl
  | error e =>
      rw [hdir] at h
      cases h

theorem advance_of_isName {d : Disk} {place : Location} {s : String} (hs : Path.IsName s)
    (hsize : s.utf8ByteSize ≤ maxNameBytes) (h : d.node? place = some .directory) :
    d.advance place s = .ok (s :: place) := by
  rw [advance_of_directory h, stepTo, if_neg hs.ne_dot, if_neg hs.ne_dots, if_neg (by omega)]

section Fold

variable {f : σ → α → Except ε σ} {s t : σ} {x : α} {xs ys : List α}

theorem of_foldlM_append (h : (xs ++ ys).foldlM f s = .ok t) :
    ∃ mid, xs.foldlM f s = .ok mid ∧ ys.foldlM f mid = .ok t := by
  rw [List.foldlM_append] at h
  cases hxs : xs.foldlM f s with
  | error e =>
      rw [hxs] at h
      cases h
  | ok mid =>
      rw [hxs] at h
      exact ⟨mid, rfl, h⟩

theorem of_foldlM_cons (h : (x :: xs).foldlM f s = .ok t) :
    ∃ mid, f s x = .ok mid ∧ xs.foldlM f mid = .ok t := by
  rw [List.foldlM_cons] at h
  cases hx : f s x with
  | error e =>
      rw [hx] at h
      cases h
  | ok mid =>
      rw [hx] at h
      exact ⟨mid, rfl, h⟩

end Fold

section Walk

variable {d d' : Disk} (hdirs : ∀ l, d.node? l = some .directory → d'.node? l = some .directory)

include hdirs

theorem advance_mono {place target : Location} {step : String} (h : d.advance place step = .ok target) :
    d'.advance place step = .ok target := by
  have hdir := directory_of_advance h
  rw [advance_of_directory hdir] at h
  rw [advance_of_directory (hdirs place hdir), h]

private theorem foldlM_advance_mono (steps : List String) {place target : Location}
    (h : steps.foldlM d.advance place = .ok target) : steps.foldlM d'.advance place = .ok target := by
  induction steps generalizing place with
  | nil => exact h
  | cons step steps ih =>
      obtain ⟨mid, hstep, hrest⟩ := of_foldlM_cons h
      rw [List.foldlM_cons, advance_mono hdirs hstep]
      exact ih hrest

theorem walk_mono {steps : List String} {target : Location} (h : d.walk steps = .ok target) :
    d'.walk steps = .ok target :=
  foldlM_advance_mono hdirs steps h

theorem locate_mono {p : Path} {target : Location} (h : d.locate p = .ok target) :
    d'.locate p = .ok target := by
  unfold locate at h ⊢
  cases htext : checkText p with
  | error e =>
      rw [htext] at h
      cases h
  | ok u =>
      rw [htext] at h
      by_cases hempty : p.text = ""
      · rw [if_pos hempty] at h
        cases h
      · rw [if_neg hempty] at h ⊢
        exact walk_mono hdirs h

end Walk

theorem walk_append_name {d : Disk} {steps : List String} {place : Location} {s : String}
    (hwalk : d.walk steps = .ok place) (hdir : d.node? place = some .directory)
    (hs : Path.IsName s) (hsize : s.utf8ByteSize ≤ maxNameBytes) :
    d.walk (steps ++ [s]) = .ok (s :: place) := by
  unfold walk at hwalk ⊢
  rw [List.foldlM_append, hwalk]
  show [s].foldlM d.advance place = _
  rw [List.foldlM_cons, advance_of_isName hs hsize hdir]
  rfl

theorem walk_of_isName {d : Disk} {name : String} (hname : Path.IsName name)
    (hsize : name.utf8ByteSize ≤ maxNameBytes) : d.walk (Path.mk name).steps = .ok [name] := by
  have hroot : d.walk [] = .ok [] := rfl
  rw [hname.steps]
  exact walk_append_name hroot rfl hname hsize

theorem locate_join {d : Disk} {p : Path} {place : Location} {s : String}
    (htext : checkText (p.join s) = .ok ()) (hwalk : d.walk p.steps = .ok place)
    (hdir : d.node? place = some .directory) (hs : Path.IsName s)
    (hsize : s.utf8ByteSize ≤ maxNameBytes) : d.locate (p.join s) = .ok (s :: place) := by
  unfold locate
  rw [htext, Path.endsInSlash_join p hs, Path.steps_join p hs]
  show (if (p.join s).text = "" then _ else _) = _
  rw [if_neg (Path.text_join_ne_empty p hs)]
  exact walk_append_name hwalk hdir hs hsize

-- A walk that ends with a name passed the directory that the name is in.
theorem of_walk_append_name {d : Disk} {steps : List String} {target : Location} {s : String}
    (hs : Path.IsName s) (h : d.walk (steps ++ [s]) = .ok target) :
    ∃ place, d.walk steps = .ok place ∧ d.node? place = some .directory ∧ target = s :: place := by
  unfold walk at h ⊢
  obtain ⟨place, hwalk, hlast⟩ := of_foldlM_append h
  obtain ⟨next, hstep, hend⟩ := of_foldlM_cons hlast
  cases hend
  have hdir := directory_of_advance hstep
  rw [advance_of_directory hdir, stepTo, if_neg hs.ne_dot, if_neg hs.ne_dots] at hstep
  split at hstep
  · cases hstep
  · cases hstep
    exact ⟨place, hwalk, hdir, rfl⟩

-- A path that leads somewhere has an acceptable text.
theorem checkText_of_locate {d : Disk} {p : Path} {place : Location} (h : d.locate p = .ok place) :
    checkText p = .ok () := by
  unfold locate at h
  cases htext : checkText p with
  | ok => rfl
  | error e =>
      rw [htext] at h
      cases h

-- A slash at the end of a path does not lead any further.
theorem walk_of_locate {d : Disk} {p : Path} {place : Location} (h : d.locate p = .ok place) :
    d.walk p.steps = .ok place := by
  have htext := checkText_of_locate h
  unfold locate at h
  rw [htext] at h
  by_cases hempty : p.text = ""
  · rw [if_pos hempty] at h
    cases h
  · rw [if_neg hempty] at h
    cases hend : p.endsInSlash with
    | false =>
        rw [hend] at h
        exact h
    | true =>
        rw [hend] at h
        have hwalk : d.walk (p.steps ++ ["."]) = .ok place := h
        obtain ⟨mid, hmid, hlast⟩ := of_foldlM_append hwalk
        obtain ⟨next, hstep, hend⟩ := of_foldlM_cons hlast
        cases hend
        rw [advance_of_directory (directory_of_advance hstep), stepTo, if_pos rfl] at hstep
        cases hstep
        exact hmid

theorem checkText_eq_ok_iff {p : Path} :
    checkText p = .ok () ↔ '\x00' ∉ p.text.toList ∧ p.text.utf8ByteSize ≤ maxPathBytes := by
  unfold checkText
  by_cases hnul : '\x00' ∈ p.text.toList
  · simp [hnul]
  · by_cases hlong : maxPathBytes < p.text.utf8ByteSize
    · simp [hnul, hlong]
    · simp [hnul, hlong, Nat.le_of_not_lt hlong]

theorem checkText_of_join {p : Path} {s : String} (hs : Path.IsName s)
    (h : checkText (p.join s) = .ok ()) : checkText p = .ok () := by
  obtain ⟨rest, hrest⟩ : ∃ rest, (p.join s).text = p.text ++ rest := by
    rcases Path.join_of_isName p hs with ⟨hjoin, -⟩ | hjoin
    · exact ⟨s, by rw [hjoin]⟩
    · exact ⟨"/" ++ s, by rw [hjoin, String.append_assoc]⟩
  rw [checkText_eq_ok_iff, hrest] at h
  rw [checkText_eq_ok_iff]
  refine ⟨fun hnul => h.1 (by simp [hnul]), ?_⟩
  have hsize := h.2
  rw [String.utf8ByteSize_append] at hsize
  omega

theorem of_locate_join {d : Disk} {p : Path} {target : Location} {s : String} (hs : Path.IsName s)
    (h : d.locate (p.join s) = .ok target) :
    ∃ place, d.walk p.steps = .ok place ∧ d.node? place = some .directory ∧ target = s :: place := by
  have htext := checkText_of_locate h
  unfold locate at h
  rw [htext, Path.endsInSlash_join p hs, Path.steps_join p hs] at h
  have hwalk : (if (p.join s).text = "" then .error .notFound else d.walk (p.steps ++ [s])) =
      (.ok target : Except Refusal Location) := h
  rw [if_neg (Path.text_join_ne_empty p hs)] at hwalk
  exact of_walk_append_name hs hwalk

-- Where something is found in a directory, the directory is found as well.
theorem locate_of_locate_join {d : Disk} {p : Path} {target : Location} {s : String}
    (hs : Path.IsName s) (hne : p.text ≠ "") (hend : p.endsInSlash = false)
    (h : d.locate (p.join s) = .ok target) :
    ∃ place, d.locate p = .ok place ∧ d.node? place = some .directory ∧ target = s :: place := by
  obtain ⟨place, hwalk, hdir, htarget⟩ := of_locate_join hs h
  refine ⟨place, ?_, hdir, htarget⟩
  unfold locate
  rw [checkText_of_join hs (checkText_of_locate h), hend]
  show (if p.text = "" then _ else _) = _
  rw [if_neg hne]
  exact hwalk

-- The place that a walk starts from is a directory if the one that it leads to is.
private theorem directory_of_foldlM {d : Disk} {steps : List String} {place target : Location}
    (h : steps.foldlM d.advance place = .ok target) (htarget : d.node? target = some .directory) :
    d.node? place = some .directory := by
  cases steps with
  | nil =>
      cases h
      exact htarget
  | cons step steps =>
      obtain ⟨mid, hstep, -⟩ := of_foldlM_cons h
      exact directory_of_advance hstep

-- Directories that are there already are passed through.
theorem makeSteps_append_of_walk {d : Disk} {steps : List String} {place target : Location}
    (h : steps.foldlM d.advance place = .ok target) (htarget : d.node? target = some .directory)
    (rest : List String) : d.makeSteps place (steps ++ rest) = d.makeSteps target rest := by
  induction steps generalizing place with
  | nil =>
      cases h
      rfl
  | cons step steps ih =>
      obtain ⟨mid, hstep, hrest⟩ := of_foldlM_cons h
      have hmid := directory_of_foldlM hrest htarget
      have hmake : d.makeStep place step = .ok (d, mid) := by
        simp only [makeStep, hstep, bind, Except.bind, hmid, pure, Except.pure]
      rw [List.cons_append, makeSteps, hmake]
      exact ih hrest

-- A directory in one that is there is made unless it is there itself.
theorem makeDirectories_join {d : Disk} {p : Path} {place : Location} {s : String}
    (htext : checkText (p.join s) = .ok ()) (hwalk : d.walk p.steps = .ok place)
    (hdir : d.node? place = some .directory) (hs : Path.IsName s)
    (hsize : s.utf8ByteSize ≤ maxNameBytes) (hfile : ∀ id, d.node? (s :: place) ≠ some (.file id)) :
    d.makeDirectories (p.join s) =
      (.ok (), if d.node? (s :: place) = some .directory then d else d.addDirectory (s :: place)) := by
  have hlast : (p.steps ++ [s]).getLast? ≠ some "." := by
    simpa using hs.ne_dot
  unfold makeDirectories
  rw [htext, Path.steps_join p hs]
  show (if (p.steps ++ [s]).getLast? = some "." then _ else _) = _
  rw [if_neg hlast, makeSteps_append_of_walk hwalk hdir]
  cases hnode : d.node? (s :: place) with
  | none => simp [makeSteps, makeStep, advance_of_isName hs hsize hdir, hnode, bind, Except.bind, pure,
      Except.pure]
  | some node =>
      cases node with
      | file id => exact absurd hnode (hfile id)
      | directory => simp [makeSteps, makeStep, advance_of_isName hs hsize hdir, hnode, bind,
          Except.bind, pure, Except.pure]

section Located

variable {d : Disk} {p : Path} {place : Location} (hlocate : d.locate p = .ok place)

include hlocate

theorem lookup_of_locate {node : Node} (hnode : d.node? place = some node) : d.lookup p = .ok node := by
  simp only [lookup, hlocate, bind, Except.bind, hnode, pure, Except.pure]

theorem lookup_of_none (hnode : d.node? place = none) : d.lookup p = .error .notFound := by
  simp only [lookup, hlocate, bind, Except.bind, hnode]
  rfl

theorem list_of_locate (hnode : d.node? place = some .directory) :
    d.list p = .ok (d.entries place) := by
  simp only [list, hlocate, bind, Except.bind, hnode, pure, Except.pure]

theorem openFile_of_file {id : FileId} (hnode : d.node? place = some (.file id)) :
    d.openFile p = (.ok id, d) := by
  simp only [openFile, hlocate, hnode]

theorem openFile_of_none (hnode : d.node? place = none) :
    d.openFile p = (.ok d.nextFile, (d.addFile place).1) := by
  simp only [openFile, hlocate, hnode]
  rfl

theorem removeFile_of_file {id : FileId} (hnode : d.node? place = some (.file id)) :
    d.removeFile p = .ok { d with nodes := d.nodes.erase place } := by
  simp only [removeFile, hlocate, bind, Except.bind, hnode, pure, Except.pure]

theorem removeFile_of_none (hnode : d.node? place = none) : d.removeFile p = .error .notFound := by
  simp only [removeFile, hlocate, bind, Except.bind, hnode]
  rfl

end Located

end Spool.Disk
