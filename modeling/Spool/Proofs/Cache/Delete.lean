import Spool.Proofs.Cache.Access
import Spool.Proofs.Page.Found
import Spool.Proofs.Step.Keeps

namespace Spool.Cache

-- A deletion keeps what the deletion of each page keeps.
theorem keeps_deleteWhere {P : Host × Cache → Prop} (h : ∀ index, Step.Keeps P (delete index))
    (asked : UInt64 → Bool) : Step.Keeps P (deleteWhere asked) := by
  unfold deleteWhere
  refine Step.keeps_get_bind fun s => ?_
  exact Step.Keeps.bind (Step.keeps_ofExcept _) (fun known => Step.keeps_forM h _) s

section

variable {c : Cache} {d : Disk} {folder : Location} {host : Host} {index : UInt64}

theorem Copes.uncache (h : c.Copes d folder) (index : UInt64) : (c.uncache index).Copes d folder :=
  h.restock (restocks_uncache c index) (h.stocks.uncache (fun _ _ hmaps => hmaps.index_eq) index)

-- A file that no page of the cache is mapped on can go.
theorem Copes.eraseNode (h : c.Copes d folder) (hindex : c.resident[index]? = none)
    {id : FileId} (hnode : d.node? (PageFile.name index :: folder) = some (.file id)) :
    c.Copes (d.eraseNode (PageFile.name index :: folder)) folder where
  shelf := h.shelf.of_frame (Disk.frame_eraseNode hnode)
  pageSize_pos := h.pageSize_pos
  pageSize_lt := h.pageSize_lt
  notClosed := h.notClosed
  resident := by
    intro page r hr
    obtain ⟨p, hp, hmaps⟩ := h.resident hr
    refine ⟨p, hp, hmaps.index_eq, hmaps.size_eq, hmaps.isOpen, ?_, hmaps.covers⟩
    rw [Disk.node?_eraseNode d (List.cons_ne_nil _ _), if_neg, hmaps.node]
    intro hplace
    injection hplace with hname _
    rw [PageFile.name_injective hname, hindex] at hr
    cases hr

theorem Copes.removeFile (h : c.Copes host.disk folder) (hindex : c.resident[index]? = none)
    (hfree : ¬host.disk.Barred folder index) :
    Step.Ends (removeFile (c.pagePath index)) host (.ok ()) fun host' =>
      Carries folder (host, c) (host', c)
        ((host.disk.image folder).without fun page => page = index) := by
  have hlocate : host.disk.locate (c.pagePath index) = _ := h.shelf.locate_page index
  unfold Cache.removeFile
  cases hnode : host.disk.node? (PageFile.name index :: folder) with
  | none =>
      have hremove := Disk.removeFile_of_none hlocate hnode
      have hsame : (host.disk.image folder).without (fun page => page = index) =
          host.disk.image folder := by
        funext page
        unfold Image.without
        split
        · next hpage =>
          rw [of_decide_eq_true hpage, Disk.image_eq_none hnode]
        · rfl
      rw [hsame]
      refine Step.ends_onDisk (d := host.disk) ?_ (h.carries (.refl c))
      rw [hremove]
  | some node =>
      cases node with
      | directory => exact absurd hnode hfree
      | file id =>
          have hremove : host.disk.removeFile (c.pagePath index) =
              .ok (host.disk.eraseNode (PageFile.name index :: folder)) :=
            Disk.removeFile_of_file hlocate hnode
          refine Step.ends_onDisk (d := host.disk.eraseNode (PageFile.name index :: folder)) ?_ ?_
          · rw [hremove]
          · exact ⟨rfl, rfl, rfl, Disk.refills_eraseNode hnode, Disk.image_eraseNode,
              h.eraseNode hindex hnode⟩

theorem Copes.delete (h : c.Copes host.disk folder) (hsync : c.syncPage host.disk index = .ok ())
    (hfree : ¬host.disk.Barred folder index) :
    Step.Ends (delete index) (host, c) (.ok ()) fun t =>
      Carries folder (host, c) t ((host.disk.image folder).without fun page => page = index) := by
  have huncache := h.uncache index
  have hindex : (c.uncache index).resident[index]? = none := by
    rw [getElem?_resident_uncache, if_pos rfl]
  have hpath : (c.uncache index).pagePath index = c.pagePath index := by
    rw [pagePath, (restocks_uncache c index).dir_eq, pagePath]
  have hremove := huncache.removeFile hindex hfree
  rw [hpath] at hremove
  unfold Step.Ends
  rw [run_delete]
  simp only [hsync]
  exact ⟨hremove.1, (huncache.carries (restocks_uncache c index)).trans hremove.2⟩

-- A deletion that goes through has taken the page, whatever the system may have refused.
private theorem Copes.delete_of_ok (h : c.Copes host.disk folder) (hfree : ¬host.disk.Barred folder index)
    {t : Host × Cache} (hrun : (Cache.delete index).run (host, c) = (.ok (), t)) :
    Carries folder (host, c) t ((host.disk.image folder).without fun page => page = index) := by
  cases hsync : c.syncPage host.disk index with
  | error e =>
      rw [run_delete, hsync] at hrun
      cases hrun
  | ok u =>
      obtain ⟨-, hcarries⟩ := h.delete hsync hfree
      rwa [hrun] at hcarries

-- Steps that each take one page from an image take all of theirs.
theorem ends_forM_without {σ : Type} {x : UInt64 → Step σ Unit} {goes : σ → Image → Prop}
    (pages : List UInt64)
    (hx : ∀ index ∈ pages, ∀ s img, goes s img →
      Step.Ends (x index) s (.ok ()) fun t => goes t (img.without fun page => page = index))
    {s : σ} {img : Image} (h : goes s img) :
    Step.Ends (pages.forM x) s (.ok ()) fun t =>
      goes t (img.without fun page => pages.contains page) := by
  induction pages generalizing s img with
  | nil => exact Step.ends_pure h
  | cons index pages ih =>
      have hboth : (img.without fun page => page = index).without (fun page => pages.contains page) =
          img.without fun page => (index :: pages).contains page := by
        rw [Image.without_without]
        congr 1
      show Step.Ends (x index >>= fun _ => pages.forM x) _ _ _
      rw [← hboth]
      refine (hx index List.mem_cons_self s img h).bind fun t ht => ?_
      exact ih (fun other hother => hx other (List.mem_cons_of_mem _ hother)) ht

-- The same of steps that may fail, if none of them does.
private theorem forM_without_of_ok {σ : Type} {x : UInt64 → Step σ Unit} {goes : σ → Image → Prop}
    (pages : List UInt64)
    (hx : ∀ index ∈ pages, ∀ s img t, goes s img → (x index).run s = (.ok (), t) →
      goes t (img.without fun page => page = index))
    {s t : σ} {img : Image} (h : goes s img) (hrun : (pages.forM x).run s = (.ok (), t)) :
    goes t (img.without fun page => pages.contains page) := by
  induction pages generalizing s img with
  | nil =>
      cases hrun
      exact h
  | cons index pages ih =>
      have hboth : (img.without fun page => page = index).without (fun page => pages.contains page) =
          img.without fun page => (index :: pages).contains page := by
        rw [Image.without_without]
        congr 1
      obtain ⟨_, u, hfirst, hrest⟩ := Step.run_bind_eq_ok_iff.mp hrun
      rw [← hboth]
      exact ih (fun other hother => hx other (List.mem_cons_of_mem _ hother))
        (hx index List.mem_cons_self s img u h hfirst) hrest

private theorem Copes.forM_delete (h : c.Copes host.disk folder) (hcalm : host.disk.Calm) {pages : List UInt64}
    (hfree : ∀ page ∈ pages, ¬host.disk.Barred folder page) :
    Step.Ends (pages.forM Cache.delete) (host, c) (.ok ()) fun t =>
      Carries folder (host, c) t ((host.disk.image folder).without fun page => pages.contains page) := by
  refine ends_forM_without pages (fun index hindex t img ht => ?_) (h.carries (.refl c))
  have hsync := syncPage_of_calm (hcalm.of_eq ht.refills.refuses) t.2 index
  have hdelete := ht.copes.delete hsync (mt (ht.refills.barred_iff _ _).mp (hfree index hindex))
  rw [ht.image] at hdelete
  exact hdelete.mono fun u hu => ht.trans hu

private theorem Copes.forM_delete_of_ok (h : c.Copes host.disk folder) {pages : List UInt64}
    (hfree : ∀ page ∈ pages, ¬host.disk.Barred folder page) {t : Host × Cache}
    (hrun : (pages.forM Cache.delete).run (host, c) = (.ok (), t)) :
    Carries folder (host, c) t ((host.disk.image folder).without fun page => pages.contains page) := by
  refine forM_without_of_ok pages (fun index hindex t img u ht hdelete => ?_) (h.carries (.refl c)) hrun
  have hcarries := ht.copes.delete_of_ok (mt (ht.refills.barred_iff _ _).mp (hfree index hindex)) hdelete
  rw [ht.image] at hcarries
  exact ht.trans hcarries

theorem Copes.existingIndexes (h : c.Copes d folder) (hpaged : d.Paged folder) :
    ∃ pages, c.existingIndexes d = .ok pages ∧ ∀ page, page ∈ pages ↔ (d.image folder page).isSome := by
  obtain ⟨pages, hscan, -, hmem, -⟩ := h.shelf.scan hpaged
  refine ⟨pages.map Prod.fst, ?_, hmem⟩
  unfold Cache.existingIndexes
  rw [hscan]
  rfl

theorem exists_knownIndexes {existing : List UInt64} (hexisting : c.existingIndexes d = .ok existing) :
    ∃ known, c.knownIndexes d = .ok known ∧
      ∀ page, page ∈ known ↔ page ∈ existing ∨ page ∈ c.resident.keys := by
  refine ⟨(Std.TreeSet.ofList (existing ++ c.resident.keys)).toList, ?_, fun page => ?_⟩
  · unfold Cache.knownIndexes
    rw [hexisting]
    rfl
  · rw [Std.TreeSet.mem_toList, Std.TreeSet.mem_ofList]
    simp

-- The pages that are known are enough to go through: what is asked for beyond them is not there. Each
-- of them is a file.
theorem Copes.knownIndexes (h : c.Copes d folder) (hpaged : d.Paged folder) (asked : UInt64 → Bool) :
    ∃ known, c.knownIndexes d = .ok known ∧ (∀ page ∈ known, ¬d.Barred folder page) ∧
      ((d.image folder).without fun page => (known.filter asked).contains page) =
        (d.image folder).without asked := by
  obtain ⟨existing, hexisting, hmem⟩ := h.existingIndexes hpaged
  obtain ⟨known, hall, hknown⟩ := exists_knownIndexes hexisting
  refine ⟨known, hall, fun page hpage hbarred => ?_, ?_⟩
  · rcases (hknown page).mp hpage with hfound | hresident
    · obtain ⟨id, hnode⟩ := Disk.isSome_image_iff.mp ((hmem page).mp hfound)
      cases hnode.symm.trans hbarred
    · rw [Std.TreeMap.mem_keys, Std.TreeMap.mem_iff_isSome_getElem?,
        h.getElem?_resident_of_barred hbarred] at hresident
      cases hresident
  · apply Image.without_congr
    intro page hpage
    have hfound := (hknown page).mpr (.inl ((hmem page).mpr hpage))
    simp [hfound]

theorem run_deleteWhere {s : Host × Cache} {asked : UInt64 → Bool} {known : List UInt64}
    (h : s.2.knownIndexes s.1.disk = .ok known) :
    (deleteWhere asked).run s = ((known.filter asked).forM delete).run s := by
  unfold deleteWhere
  rw [Step.run_bind_of_run (Step.run_get s)]
  dsimp only
  rw [h, Step.run_bind_of_run (Step.run_ofExcept _ _)]

theorem Copes.deleteWhere (h : c.Copes host.disk folder) (hcalm : host.disk.Calm)
    (hpaged : host.disk.Paged folder) (asked : UInt64 → Bool) :
    Step.Ends (deleteWhere asked) (host, c) (.ok ()) fun t =>
      Carries folder (host, c) t ((host.disk.image folder).without asked) := by
  obtain ⟨known, hknown, hfree, hsame⟩ := h.knownIndexes hpaged asked
  unfold Step.Ends
  rw [run_deleteWhere (s := (host, c)) hknown, ← hsame]
  exact h.forM_delete hcalm fun page hpage => hfree page (List.mem_filter.mp hpage).1

theorem Copes.deleteWhere_of_ok (h : c.Copes host.disk folder) (hpaged : host.disk.Paged folder)
    {asked : UInt64 → Bool} {t : Host × Cache} (hrun : (Cache.deleteWhere asked).run (host, c) = (.ok (), t)) :
    Carries folder (host, c) t ((host.disk.image folder).without asked) := by
  obtain ⟨known, hknown, hfree, hsame⟩ := h.knownIndexes hpaged asked
  rw [run_deleteWhere (s := (host, c)) hknown] at hrun
  rw [← hsame]
  exact h.forM_delete_of_ok (fun page hpage => hfree page (List.mem_filter.mp hpage).1) hrun

end

end Spool.Cache
