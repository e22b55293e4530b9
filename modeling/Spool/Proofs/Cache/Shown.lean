import Spool.Proofs.Cache.Transparent
import Spool.Proofs.Page.Access

namespace Spool

-- The sheet that is found where a path leads: of a file, or of one that is still to be made.
def Disk.sheetAt (d : Disk) (path : Path) : Except Error Sheet :=
  match d.locate path with
  | .error e => .error (.io path e.reason)
  | .ok place =>
    match d.node? place with
    | none => .ok Sheet.blank
    | some (.file id) => .ok (d.content id).sheet
    | some .directory => .error (.io path Refusal.isDirectory.reason)

namespace Disk

-- A file is at a place, and everything else is as it was.
structure Settles (place : Location) (id : FileId) (s : Sheet) (d d' : Disk) : Prop where
  wellFormed : d'.WellFormed
  file : d'.node? place = some (.file id)
  sheet : (d'.content id).sheet = s
  directory : ∀ l, d.node? l = some .directory → d'.node? l = some .directory
  node : ∀ l, l ≠ place → d'.node? l = d.node? l
  content : ∀ l id', l ≠ place → d.node? l = some (.file id') → d'.content id' = d.content id'

section

variable {d d' d'' : Disk} {dir : Path} {path : Path} {index : UInt64} {place : Location} {id : FileId}
  {s t : Sheet} {e : Error}

-- Where one page of a directory is located, directories matter to none of the others.
theorem locate_page_congr (hlocate : d.locate (PageFile.path dir index) = .ok place)
    (hdirs : ∀ l, d.node? l = some .directory → d'.node? l = some .directory) (page : UInt64) :
    d'.locate (PageFile.path dir page) = d.locate (PageFile.path dir page) := by
  obtain ⟨folder, hwalk, hdir, -⟩ := of_locate_join (PageFile.isName_name index) hlocate
  cases htext : checkText (PageFile.path dir page) with
  | error e =>
      have hrefused : ∀ d : Disk, d.locate (PageFile.path dir page) = .error e := by
        intro d
        rw [locate, htext]
        rfl
      rw [hrefused, hrefused]
  | ok u =>
      have hsize := Nat.le_trans (PageFile.utf8ByteSize_name_le page) (by decide : 29 ≤ maxNameBytes)
      have hname := PageFile.isName_name page
      have hbefore := locate_join htext hwalk hdir hname hsize
      have hafter := locate_join htext (walk_mono hdirs hwalk) (hdirs folder hdir) hname hsize
      exact hafter.trans hbefore.symm

theorem Settles.rewrites (h : Settles place id s d d') (hrewrites : Rewrites d' d'' id t) :
    Settles place id t d d'' where
  wellFormed := by
    refine ⟨⟨fun hl => ?_, fun hl hl' => ?_⟩, h.wellFormed.calm.of_eq hrewrites.refuses⟩
    · rw [hrewrites.nextFile]
      exact h.wellFormed.lt_nextFile (hrewrites.node? _ ▸ hl)
    · exact h.wellFormed.unique (hrewrites.node? _ ▸ hl) (hrewrites.node? _ ▸ hl')
  file := (hrewrites.node? place).trans h.file
  sheet := hrewrites.sheet
  directory l hl := (hrewrites.node? l).trans (h.directory l hl)
  node l hl := (hrewrites.node? l).trans (h.node l hl)
  content l id' hl hid := by
    have hne : id' ≠ id := fun heq => hl (h.wellFormed.unique ((h.node l hl).trans (heq ▸ hid)) h.file)
    rw [hrewrites.others id' hne, h.content l id' hl hid]

theorem settles_addFile (hwf : d.WellFormed) (hnone : d.node? place = none) :
    Settles place d.nextFile Sheet.blank d (d.addFile place).1 where
  wellFormed := ⟨hwf.toNumbered.addFile (ne_nil_of_node?_eq_none hnone), hwf.calm⟩
  file := (node?_addFile d (ne_nil_of_node?_eq_none hnone) place).trans (if_pos rfl)
  sheet := by
    rw [content_addFile, if_pos rfl, Content.sheet_empty]
  directory _ hl := directories_addFile hnone hl
  node l hl := (node?_addFile d (ne_nil_of_node?_eq_none hnone) l).trans (if_neg hl)
  content l id' _ hid := by
    rw [content_addFile, if_neg (Nat.ne_of_lt (hwf.lt_nextFile hid))]

-- A path at which a sheet is found can be opened.
theorem exists_openFile (hwf : d.WellFormed) (hfound : d.sheetAt path = .ok s) : ∃ place id d',
    d.locate path = .ok place ∧ d.openFile path = (.ok id, d') ∧ Settles place id s d d' := by
  unfold sheetAt at hfound
  cases hlocate : d.locate path with
  | error e =>
      rw [hlocate] at hfound
      cases hfound
  | ok place =>
      rw [hlocate] at hfound
      cases hnode : d.node? place with
      | none =>
          simp only [hnode] at hfound
          cases hfound
          exact ⟨place, _, _, rfl, openFile_of_none hlocate hnode, settles_addFile hwf hnode⟩
      | some node =>
          simp only [hnode] at hfound
          cases node <;> cases hfound
          exact ⟨place, _, _, rfl, openFile_of_file hlocate hnode, hwf, hnode, rfl, fun _ hl => hl,
            fun _ _ => rfl, fun _ _ _ _ => rfl⟩

theorem openFile_of_sheetAt_error (hfound : d.sheetAt path = .error e) :
    ∃ refusal, d.openFile path = (.error refusal, d) ∧ e = .io path refusal.reason := by
  unfold sheetAt at hfound
  unfold openFile
  cases hlocate : d.locate path with
  | error refusal =>
      rw [hlocate] at hfound
      cases hfound
      exact ⟨refusal, rfl, rfl⟩
  | ok place =>
      rw [hlocate] at hfound
      cases hnode : d.node? place with
      | none =>
          simp only [hnode] at hfound
          cases hfound
      | some node =>
          simp only [hnode] at hfound
          cases node <;> cases hfound
          refine ⟨.isDirectory, ?_, rfl⟩
          simp only [hnode]

theorem Settles.sheetAt_eq (h : Settles place id s d d')
    (hlocate : d.locate (PageFile.path dir index) = .ok place) (page : UInt64) :
    d'.sheetAt (PageFile.path dir page) =
      if page = index then .ok s else d.sheetAt (PageFile.path dir page) := by
  have hsame := locate_page_congr hlocate h.directory page
  by_cases hpage : page = index
  · subst hpage
    simp only [sheetAt, hsame, hlocate, h.file, h.sheet, if_true]
  · rw [if_neg hpage, sheetAt, sheetAt, hsame]
    cases hother : d.locate (PageFile.path dir page) with
    | error e => rfl
    | ok l =>
        have hne : l ≠ place := fun heq => hpage (page_eq_of_locate (heq ▸ hother) hlocate)
        dsimp only
        rw [h.node l hne]
        cases hnode : d.node? l with
        | none => rfl
        | some node =>
            cases node with
            | directory => rfl
            | file id' => simp only [h.content l id' hne hnode]

end

end Disk

namespace Page

section

variable {host : Host} {dir : Path} {index : UInt64} {size : Nat} {access : Access α}

theorem once_of_sheetAt_error {e : Error} (hcalm : host.disk.Calm)
    (hfound : host.disk.sheetAt (PageFile.path dir index) = .error e) :
    Step.Ends (once (PageFile.path dir index) index size access) host (.error e) (· = host) := by
  obtain ⟨refusal, hopen, rfl⟩ := Disk.openFile_of_sheetAt_error hfound
  have hmap : Step.Ends (map (PageFile.path dir index) index size) host
      (.error (.io (PageFile.path dir index) refusal.reason)) (· = host) := by
    unfold Step.Ends
    rw [run_map, Disk.openPage_of_calm hcalm, hopen]
    exact ⟨rfl, rfl⟩
  exact hmap.bind_error

section

variable {give : Sheet → α} {leave : Sheet → Sheet} {s : Sheet} (hwf : host.disk.WellFormed)
  (hpos : 0 < size) (hsize : size < Disk.maxFileSize)
  (hacts : Acts access index size fun s => .ok (give s, leave s))

include hwf hpos hsize hacts

private theorem once_of_sheetAt (hfound : host.disk.sheetAt (PageFile.path dir index) = .ok s) :
    Step.Ends (once (PageFile.path dir index) index size access) host (.ok (give (s.growTo size)))
      fun host' => ∀ page, host'.disk.sheetAt (PageFile.path dir page) =
        if page = index then .ok (leave (s.growTo size)) else host.disk.sheetAt (PageFile.path dir page) := by
  obtain ⟨place, id, d, hlocate, hopen, hsettles⟩ := Disk.exists_openFile hwf hfound
  obtain ⟨d', hgrow, hgrown⟩ := Disk.exists_growFile d id (.inr hsize)
  rw [hsettles.sheet] at hgrown
  have hmap : (map (PageFile.path dir index) index size).run host =
      (.ok (fresh (PageFile.path dir index) index size id), { host with disk := d' }) := by
    have hcalm := hsettles.wellFormed.calm
    have hlong : ¬(d'.refuses .mapFile (PageFile.path dir index) ∨ (d'.content id).size = 0) := by
      rw [hcalm.of_eq hgrown.refuses, Bool.false_eq_true, false_or]
      exact Nat.ne_of_gt (Nat.lt_of_lt_of_le hpos (Disk.size_growFile hgrow))
    rw [run_map, Disk.openPage_of_calm hwf.calm, hopen]
    dsimp only
    rw [Disk.fitPage_of_calm hcalm, hgrow]
    exact if_neg hlong
  have hagrees := hacts (fresh (PageFile.path dir index) index size id) d' rfl rfl rfl
  have hsheet : (d'.content (fresh (PageFile.path dir index) index size id).file).sheet = s.growTo size :=
    hgrown.sheet
  rw [hsheet] at hagrees
  unfold once
  refine Step.ends_bind_of_run hmap (Step.ends_get_bind ?_)
  dsimp only
  generalize access (fresh (PageFile.path dir index) index size id) d' = result at hagrees
  cases hagrees with
  | @ok d'' _ _ dirty hrewrites _ =>
      refine (Step.ends_ofExcept (Eq.refl _)).bind ?_
      rintro _ rfl
      refine (Step.ends_modify (Eq.refl _)).bind ?_
      rintro _ rfl
      have hdone := (hsettles.rewrites hgrown).rewrites hrewrites
      exact Step.ends_pure fun page => hdone.sheetAt_eq hlocate page

-- An access that never refuses a page of the size, by what it gives and what it leaves of the sheet.
theorem ends_once :
    Step.Ends (once (PageFile.path dir index) index size access) host
      ((host.disk.sheetAt (PageFile.path dir index)).map fun s => give (s.growTo size))
      fun host' => ∀ page, host'.disk.sheetAt (PageFile.path dir page) =
        if page = index then (host.disk.sheetAt (PageFile.path dir index)).map fun s => leave (s.growTo size)
        else host.disk.sheetAt (PageFile.path dir page) := by
  cases hfound : host.disk.sheetAt (PageFile.path dir index) with
  | error e =>
      refine (once_of_sheetAt_error hwf.calm hfound).mono ?_
      rintro _ rfl page
      split
      · next hpage => rw [hpage, hfound, Except.map]
      · rfl
  | ok s => exact once_of_sheetAt hwf hpos hsize hacts hfound

end

end

end Page

end Spool
