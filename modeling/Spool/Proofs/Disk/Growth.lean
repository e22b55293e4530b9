import Spool.Proofs.Disk.Frame
import Spool.Proofs.Disk.Walk

namespace Spool.Disk

-- Nothing is cut, and no file is taken away but at places that are said.
structure Grows (gone : Location → Prop) (d d' : Disk) : Prop where
  directories : ∀ l, d.node? l = some .directory → d'.node? l = some .directory
  files : ∀ l id, ¬gone l → d.node? l = some (.file id) →
    d'.node? l = some (.file id) ∧ (d.content id).size ≤ (d'.content id).size
  numbered : d'.Numbered
  refuses : d'.refuses = d.refuses

section

variable {gone : Location → Prop} {d d' d'' : Disk} {place : Location} {p : Path} {id : FileId}

theorem Numbered.grows (h : d.Numbered) : Grows gone d d :=
  ⟨fun _ hl => hl, fun _ _ _ hl => ⟨hl, Nat.le_refl _⟩, h, rfl⟩

theorem Grows.wellFormed (h : Grows gone d d') (hwf : d.WellFormed) : d'.WellFormed :=
  ⟨h.numbered, hwf.calm.of_eq h.refuses⟩

theorem Grows.trans (h : Grows gone d d') (h' : Grows gone d' d'') : Grows gone d d'' where
  directories l hl := h'.directories l (h.directories l hl)
  files l id hgone hl := by
    obtain ⟨hl', hle⟩ := h.files l id hgone hl
    obtain ⟨hl'', hle'⟩ := h'.files l id hgone hl'
    exact ⟨hl'', Nat.le_trans hle hle'⟩
  numbered := h'.numbered
  refuses := h'.refuses.trans h.refuses

theorem Grows.mono {gone' : Location → Prop} (h : Grows gone d d') (hgone : ∀ l, gone l → gone' l) :
    Grows gone' d d' :=
  ⟨h.directories, fun l id hl => h.files l id (mt (hgone l) hl), h.numbered, h.refuses⟩

section Found

theorem ne_nil_of_node?_eq_none (hnode : d.node? place = none) : place ≠ [] := by
  rintro rfl
  cases hnode

theorem lookup_eq_ok_iff {node : Node} :
    d.lookup p = .ok node ↔ ∃ place, d.locate p = .ok place ∧ d.node? place = some node := by
  unfold lookup
  cases hplace : d.locate p with
  | error e => simp [bind, Except.bind]
  | ok place =>
      cases hnode : d.node? place with
      | none => simp [bind, Except.bind, hnode]
      | some node => simp [bind, Except.bind, hnode, pure, Except.pure]

theorem lookup_eq_file_iff :
    d.lookup p = .ok (.file id) ↔ ∃ place, d.locate p = .ok place ∧ d.node? place = some (.file id) :=
  lookup_eq_ok_iff

theorem isFile_iff : d.isFile p = true ↔ ∃ id, d.lookup p = .ok (.file id) := by
  unfold isFile
  split
  · next id hfile => exact iff_of_true rfl ⟨id, hfile⟩
  · next hnone => exact iff_of_false nofun fun ⟨id, hfile⟩ => hnone id hfile

theorem Grows.lookup (h : Grows gone d d') (hgone : ∀ l, d.locate p = .ok l → ¬gone l)
    (hfile : d.lookup p = .ok (.file id)) :
    d'.lookup p = .ok (.file id) ∧ (d.content id).size ≤ (d'.content id).size := by
  obtain ⟨place, hlocate, hnode⟩ := lookup_eq_file_iff.mp hfile
  obtain ⟨hnode', hle⟩ := h.files place id (hgone place hlocate) hnode
  exact ⟨lookup_eq_file_iff.mpr ⟨place, locate_mono h.directories hlocate, hnode'⟩, hle⟩

theorem directories_addFile (hnode : d.node? place = none) {l : Location}
    (hl : d.node? l = some .directory) : (d.addFile place).1.node? l = some .directory := by
  rw [node?_addFile d (ne_nil_of_node?_eq_none hnode), if_neg, hl]
  rintro rfl
  rw [hnode] at hl
  cases hl

theorem lookup_openFile {p : Path} (h : d.openFile p = (.ok id, d')) :
    d'.lookup p = .ok (.file id) := by
  unfold openFile at h
  cases hlocate : d.locate p with
  | error e =>
      simp only [hlocate] at h
      cases h
  | ok place =>
      cases hnode : d.node? place with
      | some node =>
          cases node <;> simp only [hlocate, hnode] at h <;> cases h
          exact lookup_eq_file_iff.mpr ⟨place, hlocate, hnode⟩
      | none =>
          simp only [hlocate, hnode] at h
          cases h
          refine lookup_eq_file_iff.mpr ⟨place, locate_mono (fun _ => directories_addFile hnode) hlocate, ?_⟩
          exact (node?_addFile d (ne_nil_of_node?_eq_none hnode) place).trans (if_pos rfl)

theorem openFile_of_openPage (h : d.openPage p = (.ok id, d')) : d.openFile p = (.ok id, d') := by
  unfold openPage at h
  split at h
  · cases h
  · exact h

theorem openPage_of_calm (h : d.Calm) (p : Path) : d.openPage p = d.openFile p := by
  unfold openPage
  rw [h]
  rfl

theorem fitPage_of_calm (h : d.Calm) (p : Path) (id : FileId) (size : Nat) :
    d.fitPage p id size = d.growFile id size := by
  unfold fitPage growFile
  rw [h, h]
  by_cases hle : size ≤ (d.content id).size
  · simp only [if_pos hle, Bool.false_eq_true, if_false]
  · simp only [if_neg hle, Bool.false_eq_true, if_false]

theorem size_growFile {size : Nat} (h : d.growFile id size = (.ok (), d')) :
    size ≤ (d'.content id).size := by
  unfold growFile at h
  split at h
  · next hle =>
    cases h
    exact hle
  · split at h
    · cases h
    · cases h
      rw [content_setContent, if_pos rfl]
      exact Nat.le_max_right _ _

theorem size_fitPage {size : Nat} (h : d.fitPage p id size = (.ok (), d')) :
    size ≤ (d'.content id).size := by
  unfold fitPage at h
  split at h
  · cases h
  split at h
  · next hle =>
    cases h
    exact hle
  split at h
  · cases h
  · exact size_growFile h

end Found

section Change

variable (hnumbered : d.Numbered)

include hnumbered

theorem grows_addFile (hnode : d.node? place = none) : Grows gone d (d.addFile place).1 where
  directories _ := directories_addFile hnode
  files l id _ hl := by
    have hne : l ≠ place := by
      rintro rfl
      rw [hnode] at hl
      cases hl
    rw [node?_addFile d (ne_nil_of_node?_eq_none hnode), if_neg hne, content_addFile,
      if_neg (Nat.ne_of_lt (hnumbered.lt_nextFile hl))]
    exact ⟨hl, Nat.le_refl _⟩
  numbered := hnumbered.addFile (ne_nil_of_node?_eq_none hnode)
  refuses := rfl

theorem grows_setContent {c : Content} (hsize : (d.content id).size ≤ c.size) :
    Grows gone d (d.setContent id c) where
  directories _ hl := hl
  files l id' _ hl := by
    refine ⟨hl, ?_⟩
    rw [content_setContent]
    split
    · next hid => exact hid ▸ hsize
    · exact Nat.le_refl _
  numbered := ⟨fun hl => hnumbered.lt_nextFile hl, fun hl hl' => hnumbered.unique hl hl'⟩
  refuses := rfl

theorem grows_openFile (p : Path) : Grows gone d (d.openFile p).2 := by
  cases hlocate : d.locate p with
  | error e =>
      simp only [openFile, hlocate]
      exact hnumbered.grows
  | ok place =>
      cases hnode : d.node? place with
      | none =>
          rw [openFile_of_none hlocate hnode]
          exact grows_addFile hnumbered hnode
      | some node =>
          cases node with
          | file id =>
              rw [openFile_of_file hlocate hnode]
              exact hnumbered.grows
          | directory =>
              simp only [openFile, hlocate, hnode]
              exact hnumbered.grows

theorem grows_growFile (id : FileId) (size : Nat) : Grows gone d (d.growFile id size).2 := by
  unfold growFile
  split
  · exact hnumbered.grows
  · split
    · exact hnumbered.grows
    · exact grows_setContent hnumbered (Nat.le_max_left _ _)

theorem grows_openPage (p : Path) : Grows gone d (d.openPage p).2 := by
  unfold openPage
  split
  · exact hnumbered.grows
  · exact grows_openFile hnumbered p

theorem grows_fitPage (p : Path) (id : FileId) (size : Nat) : Grows gone d (d.fitPage p id size).2 := by
  unfold fitPage
  split
  · exact hnumbered.grows
  split
  · exact hnumbered.grows
  split
  · exact hnumbered.grows
  · exact grows_growFile hnumbered id size

theorem grows_eraseNode (hfile : d.node? place = some (.file id)) :
    Grows (· = place) d (d.eraseNode place) := by
  have hne : place ≠ [] := by
    rintro rfl
    cases hfile
  have hold : ∀ {l node}, (d.eraseNode place).node? l = some node → d.node? l = some node := by
    intro l node hl
    rw [node?_eraseNode d hne] at hl
    split at hl
    · cases hl
    · exact hl
  refine ⟨fun l hl => ?_, fun l id' hgone hl => ?_,
    ⟨fun hl => hnumbered.lt_nextFile (hold hl), fun hl hl' => hnumbered.unique (hold hl) (hold hl')⟩, rfl⟩
  · rw [node?_eraseNode d hne, if_neg, hl]
    rintro rfl
    rw [hfile] at hl
    cases hl
  · rw [node?_eraseNode d hne, if_neg hgone]
    exact ⟨hl, Nat.le_refl _⟩

-- The file that a path leads to is the only one that is gone.
theorem grows_removeFile (h : d.removeFile p = .ok d') : Grows (fun l => d.locate p = .ok l) d d' := by
  unfold removeFile at h
  cases hlocate : d.locate p with
  | error e =>
      simp only [hlocate, bind, Except.bind] at h
      cases h
  | ok place =>
      cases hnode : d.node? place with
      | none =>
          simp only [hlocate, bind, Except.bind, hnode] at h
          cases h
      | some node =>
          cases node <;> simp only [hlocate, bind, Except.bind, hnode] at h <;> cases h
          refine (grows_eraseNode hnumbered hnode).mono ?_
          rintro _ rfl
          rfl

end Change

section Directories

variable (hwf : d.WellFormed)

include hwf

theorem wellFormed_makeStep {step : String} {next : Location}
    (h : d.makeStep place step = .ok (d', next)) : d'.WellFormed := by
  unfold makeStep at h
  cases hadvance : d.advance place step with
  | error e =>
      rw [hadvance] at h
      cases h
  | ok l =>
      simp only [hadvance, bind, Except.bind] at h
      cases hnode : d.node? l with
      | some node =>
          cases node <;> simp only [hnode, pure, Except.pure] at h <;> cases h
          exact hwf
      | none =>
          simp only [hnode, pure, Except.pure] at h
          cases h
          cases next with
          | nil => cases hnode
          | cons name outer => exact (frame_addDirectory d name outer).wellFormed hwf

theorem wellFormed_makeSteps (steps : List String) (place : Location) :
    (d.makeSteps place steps).2.WellFormed := by
  induction steps generalizing d place with
  | nil => exact hwf
  | cons step steps ih =>
      rw [makeSteps]
      cases hmake : d.makeStep place step with
      | error e => exact hwf
      | ok out => exact ih (wellFormed_makeStep hwf hmake) out.2

theorem wellFormed_makeDirectories (p : Path) : (d.makeDirectories p).2.WellFormed := by
  unfold makeDirectories
  split
  · exact hwf
  · split
    · have hfront := wellFormed_makeSteps hwf (withoutTrailingDots p.steps).dropLast []
      dsimp only
      split
      · next hmake =>
        rw [hmake] at hfront
        exact hfront
      · next hmake =>
        rw [hmake] at hfront
        split <;> exact hfront
    · exact wellFormed_makeSteps hwf p.steps []

end Directories

end

end Spool.Disk
