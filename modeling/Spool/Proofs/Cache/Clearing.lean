import Spool.Proofs.Cache.Delete
import Spool.Proofs.Cache.Usable
import Spool.Proofs.Page.Counting

namespace Spool.Cache

-- A deletion that went well: what is left of the pages that were asked for, and all else as it was.
structure Cleared (asked : UInt64 → Bool) (s t : Host × Cache) : Prop where
  uncached : ∀ {page : UInt64}, asked page = true → t.2.resident[page]? = none
  resident : ∀ {page : UInt64}, asked page = false → t.2.resident[page]? = s.2.resident[page]?
  page : ∀ {page : UInt64} {r : Resident}, asked page = false → s.2.resident[page]? = some r →
    t.2.page? r.page = s.2.page? r.page
  content : ∀ id, t.1.disk.content id = s.1.disk.content id
  node : ∀ place, t.1.disk.node? place = s.1.disk.node? place ∨
    t.1.disk.node? place = none ∧
      ∃ page, asked page = true ∧ s.1.disk.locate (s.2.pagePath page) = .ok place
  file : ∀ {page : UInt64} {node : Node}, asked page = false →
    (t.1.disk.lookup (s.2.pagePath page) = .ok node ↔ s.1.disk.lookup (s.2.pagePath page) = .ok node)
  existing : ∃ left, t.2.existingIndexes t.1.disk = .ok left ∧ ∀ page, page ∈ left ↔
    ∃ name, s.1.disk.Counts s.2.dir name page ∧ (asked page = true → name ≠ PageFile.name page)

-- Whatever file counts as a page that is asked for has the name that page files are given.
def Named (asked : UInt64 → Bool) (s : Host × Cache) : Prop :=
  ∀ {page : UInt64} {name : String}, asked page = true → s.1.disk.Counts s.2.dir name page →
    name = PageFile.name page

-- After a deletion of all pages that went well no page is left.
def Empties (s : Host × Cache) : Prop :=
  ∀ t, deleteAll.run s = (.ok (), t) →
    t.2.size = 0 ∧ t.2.existingIndexes t.1.disk = .ok [] ∧ t.2.diskUsage t.1.disk = .ok 0

section

variable {c : Cache} {s t : Host × Cache} {pageSize : Nat} {shut : List PageId} {asked : UInt64 → Bool}
  {index page : UInt64} {pages : List UInt64} {dir : Path} {host host' : Host}

-- A page file that could be removed, or was not there.
theorem loses_removeFile (h : (removeFile (PageFile.path dir page)).run host = (.ok (), host')) :
    Disk.Loses dir [page] host.disk host'.disk := by
  unfold removeFile Step.onDisk at h
  rw [Step.run_ofRun] at h
  cases hlocate : host.disk.locate (PageFile.path dir page) with
  | error e =>
      have hremove : host.disk.removeFile (PageFile.path dir page) = .error e := by
        simp only [Disk.removeFile, hlocate, bind, Except.bind]
      have habsent : Disk.Loses dir [page] host.disk host.disk :=
        .of_absent fun place _ hplace => by cases hlocate.symm.trans hplace
      simp only [hremove] at h
      cases e <;> cases h
      exact habsent
  | ok place =>
      cases hnode : host.disk.node? place with
      | none =>
          simp only [Disk.removeFile_of_none hlocate hnode] at h
          cases h
          refine .of_absent fun place' id hplace hfile => ?_
          cases hlocate.symm.trans hplace
          cases hnode.symm.trans hfile
      | some node =>
          cases node with
          | directory =>
              have hremove : host.disk.removeFile (PageFile.path dir page) = .error .isDirectory := by
                simp only [Disk.removeFile, hlocate, bind, Except.bind, hnode]
                rfl
              simp only [hremove] at h
              cases h
          | file id =>
              simp only [Disk.removeFile_of_file hlocate hnode] at h
              cases h
              exact .of_eraseNode hlocate hnode

theorem of_delete (h : (delete index).run s = (.ok (), t)) :
    t.2 = s.2.uncache index ∧ Disk.Loses s.2.dir [index] s.1.disk t.1.disk := by
  rw [run_delete, pagePath] at h
  split at h
  · cases h
  · cases hremove : (removeFile (PageFile.path s.2.dir index)).run s.1 with | mk r host'
    rw [hremove] at h
    cases h
    exact ⟨rfl, loses_removeFile hremove⟩

-- A page whose file is not there is deleted without more, if the system goes along.
theorem delete_of_absent (hcalm : s.1.disk.Calm)
    (habsent : s.1.disk.removeFile (s.2.pagePath index) = .error .notFound) :
    (delete index).run s = (.ok (), (s.1, s.2.uncache index)) := by
  have hremove : (removeFile (s.2.pagePath index)).run s.1 = (.ok (), s.1) := by
    unfold removeFile
    rw [Step.run_onDisk, habsent]
  rw [run_delete, syncPage_of_calm hcalm, hremove]

theorem dir_foldl_uncache (pages : List UInt64) (c : Cache) : (pages.foldl uncache c).dir = c.dir :=
  (restocks_foldl restocks_uncache pages c).dir_eq

theorem of_forM_delete (h : (pages.forM delete).run s = (.ok (), t)) :
    t.2 = pages.foldl uncache s.2 ∧ Disk.Loses s.2.dir pages s.1.disk t.1.disk := by
  induction pages generalizing s with
  | nil =>
      cases h
      exact ⟨rfl, .refl _ _⟩
  | cons index pages ih =>
      have hforM : (index :: pages).forM delete = delete index >>= fun _ => pages.forM delete := rfl
      rw [hforM] at h
      obtain ⟨_, u, hfirst, hrest⟩ := Step.run_bind_eq_ok_iff.mp h
      obtain ⟨hcache, hloses⟩ := of_delete hfirst
      obtain ⟨hcache', hloses'⟩ := ih hrest
      rw [hcache, (restocks_uncache s.2 index).dir_eq] at hloses'
      exact ⟨by rw [hcache', hcache, List.foldl_cons], hloses.trans hloses'⟩

theorem Shelved.foldl_uncache (h : c.Shelved pageSize shut) (pages : List UInt64) :
    (∀ page : UInt64, (pages.foldl Cache.uncache c).resident[page]? =
      if page ∈ pages then none else c.resident[page]?) ∧
    ∀ (page : UInt64) (r : Resident), page ∉ pages → c.resident[page]? = some r →
      (pages.foldl Cache.uncache c).page? r.page = c.page? r.page := by
  induction pages generalizing c with
  | nil => exact ⟨fun _ => (if_neg List.not_mem_nil).symm, fun _ _ _ _ => rfl⟩
  | cons index pages ih =>
      obtain ⟨hresident, hpage⟩ := ih (h.uncache index)
      refine ⟨fun page => ?_, fun page r hkept hr => ?_⟩
      · rw [List.foldl_cons, hresident, getElem?_resident_uncache]
        by_cases hfirst : page = index
        · simp [hfirst]
        · simp [hfirst]
      · obtain ⟨hne, hkept⟩ := not_or.mp (mt List.mem_cons.mpr hkept)
        have hr' : (c.uncache index).resident[page]? = some r := by
          rw [getElem?_resident_uncache, if_neg hne, hr]
        rw [List.foldl_cons, hpage page r hkept hr', h.page?_uncache hr hne]

-- The pages that are deleted, and what was known of them before.
theorem of_deleteWhere (h : (deleteWhere asked).run s = (.ok (), t)) : ∃ existing gone,
    s.2.existingIndexes s.1.disk = .ok existing ∧
    (∀ page, page ∈ gone ↔ asked page = true ∧ (page ∈ existing ∨ page ∈ s.2.resident.keys)) ∧
    t.2 = gone.foldl uncache s.2 ∧ Disk.Loses s.2.dir gone s.1.disk t.1.disk := by
  unfold deleteWhere at h
  rw [Step.run_bind_of_run (Step.run_get s)] at h
  obtain ⟨known, u, hrun, hforM⟩ := Step.run_bind_eq_ok_iff.mp h
  obtain ⟨hknown, rfl⟩ := Prod.mk.inj hrun
  cases hexisting : s.2.existingIndexes s.1.disk with
  | error e =>
      unfold knownIndexes at hknown
      rw [hexisting] at hknown
      cases hknown
  | ok existing =>
      obtain ⟨known', hknown', hmem⟩ := exists_knownIndexes hexisting
      cases hknown.symm.trans hknown'
      obtain ⟨hcache, hloses⟩ := of_forM_delete hforM
      refine ⟨existing, known.filter asked, rfl, fun page => ?_, hcache, hloses⟩
      rw [List.mem_filter, hmem, and_comm]

theorem existingIndexes_eq_ok_iff {d : Disk} {existing : List UInt64} : c.existingIndexes d = .ok existing ↔
    ∃ found, PageFile.scan d c.dir = .ok found ∧ found.map Prod.fst = existing := by
  unfold existingIndexes
  cases PageFile.scan d c.dir <;> simp [Except.map]

theorem mem_existingIndexes_iff {d : Disk} {existing : List UInt64} (h : c.existingIndexes d = .ok existing) :
    page ∈ existing ↔ ∃ name, d.Counts c.dir name page := by
  obtain ⟨found, hscan, rfl⟩ := existingIndexes_eq_ok_iff.mp h
  exact Disk.mem_scan_iff hscan

theorem exists_existingIndexes {c' : Cache} {d d' : Disk} {existing : List UInt64} (hdir : c'.dir = c.dir)
    (hloses : Disk.Loses c.dir pages d d') (h : c.existingIndexes d = .ok existing) :
    ∃ left, c'.existingIndexes d' = .ok left := by
  obtain ⟨found, hscan, -⟩ := existingIndexes_eq_ok_iff.mp h
  obtain ⟨left, hleft⟩ := hloses.exists_scan hscan
  rw [← hdir] at hleft
  exact ⟨left.map Prod.fst, existingIndexes_eq_ok_iff.mpr ⟨left, hleft, rfl⟩⟩

theorem Shelved.cleared (hs : s.2.Shelved pageSize shut) (h : (deleteWhere asked).run s = (.ok (), t)) :
    Cleared asked s t := by
  obtain ⟨existing, gone, hexisting, hgone, hcache, hloses⟩ := of_deleteWhere h
  obtain ⟨hresident, hpage⟩ := hs.foldl_uncache gone
  have hdir : t.2.dir = s.2.dir := by
    rw [hcache, dir_foldl_uncache]
  have hkept : ∀ {page}, asked page = false → page ∉ gone := by
    intro page hasked hmem
    rw [((hgone page).mp hmem).1] at hasked
    cases hasked
  refine ⟨fun {page} hasked => ?_, fun {page} hasked => ?_, fun {page r} hasked hr => ?_, hloses.content,
    fun place => ?_, fun {page node} hasked => ?_, ?_⟩
  · rw [hcache, hresident]
    split
    · rfl
    · next hmem =>
      have hno : page ∉ s.2.resident.keys := fun hkey => hmem ((hgone page).mpr ⟨hasked, .inr hkey⟩)
      rw [Std.TreeMap.mem_keys, Std.TreeMap.mem_iff_isSome_getElem?] at hno
      simpa using hno
  · rw [hcache, hresident, if_neg (hkept hasked)]
  · rw [hcache, hpage page r (hkept hasked) hr]
  · rcases hloses.node place with hsame | ⟨hnone, -, page, hmem, hlocate⟩
    · exact .inl hsame
    · exact .inr ⟨hnone, page, ((hgone page).mp hmem).1, hlocate⟩
  · exact hloses.lookup_iff (hkept hasked)
  · obtain ⟨left, hleft⟩ := exists_existingIndexes hdir hloses hexisting
    refine ⟨left, hleft, fun page => ?_⟩
    rw [mem_existingIndexes_iff hleft, hdir]
    refine exists_congr fun name => ?_
    rw [hloses.counts_iff]
    refine and_congr_right fun hcounts => imp_congr_left ?_
    have hfound := (mem_existingIndexes_iff hexisting).mpr ⟨name, hcounts⟩
    rw [hgone]
    exact ⟨fun hmem => hmem.1, fun hasked => ⟨hasked, .inl hfound⟩⟩

-- Nothing that was asked for is left exactly if all of it had the names of page files.
theorem Cleared.named_iff (h : Cleared asked s t) : Named asked s ↔
    ∃ left, t.2.existingIndexes t.1.disk = .ok left ∧ ∀ page ∈ left, asked page = false := by
  obtain ⟨left, hleft, hmem⟩ := h.existing
  constructor
  · intro hnamed
    refine ⟨left, hleft, fun page hpage => ?_⟩
    obtain ⟨name, hcounts, hname⟩ := (hmem page).mp hpage
    cases hasked : asked page with
    | false => rfl
    | true => exact absurd (hnamed hasked hcounts) (hname hasked)
  · rintro ⟨left', hleft', hnone⟩ page name hasked hcounts
    cases hleft.symm.trans hleft'
    by_cases hname : name = PageFile.name page
    · exact hname
    · have hpage := (hmem page).mpr ⟨name, hcounts, fun _ => hname⟩
      rw [hnone page hpage] at hasked
      cases hasked

theorem size_eq_zero (h : ∀ page : UInt64, c.resident[page]? = none) : c.size = 0 := by
  have hempty : c.resident.isEmpty = true := by
    rw [Std.TreeMap.isEmpty_iff_forall_not_mem]
    intro page hmem
    rw [Std.TreeMap.mem_iff_isSome_getElem?, h page] at hmem
    cases hmem
  rw [Std.TreeMap.isEmpty_eq_size_eq_zero, beq_iff_eq] at hempty
  exact hempty

-- Where there are no page files, they have no bytes.
theorem diskUsage_eq_zero {d : Disk} (h : c.existingIndexes d = .ok []) : c.diskUsage d = .ok 0 := by
  obtain ⟨found, hscan, hnil⟩ := existingIndexes_eq_ok_iff.mp h
  unfold diskUsage
  rw [hscan, List.map_eq_nil_iff.mp hnil]
  rfl

end

-- A directory with one file, which has a zero in front of its number, and a cache of its pages.
def zeroed : Disk :=
  ((Disk.empty.addDirectory ["spool"]).addFile ["page-01.dat", "spool"]).1

def ofZeroed : Cache := ⟨⟨"/spool"⟩, 64, .pinned, 0, 0, #[], ∅, false⟩

theorem open_zeroed :
    (Cache.open ⟨"/spool"⟩ 64 .pinned).run ⟨zeroed, 0⟩ = (.ok ofZeroed, ⟨zeroed, 0⟩) := rfl

theorem scan_zeroed : PageFile.scan zeroed ⟨"/spool"⟩ = .ok [(1, ⟨"/spool/page-01.dat"⟩)] := by
  have hfound : [("page-01.dat", Node.file 0)].filterMap (PageFile.numbered? ⟨"/spool"⟩) =
      [(1, ⟨"/spool/page-01.dat"⟩)] := by decide
  show Except.ok (([("page-01.dat", Node.file 0)].filterMap _).mergeSort _) = _
  rw [hfound, List.mergeSort_singleton]

-- The file is found as a page, and stays.
theorem not_empties_zeroed : ∃ host' c,
    (Cache.open ⟨"/spool"⟩ 64 .pinned).run ⟨zeroed, 0⟩ = (.ok c, host') ∧ ¬Empties (host', c) := by
  refine ⟨_, _, open_zeroed, fun hempties => ?_⟩
  have hknown : ofZeroed.knownIndexes zeroed = .ok [1] := by
    have hscan : PageFile.scan zeroed ofZeroed.dir = _ := scan_zeroed
    unfold knownIndexes existingIndexes
    rw [hscan]
    rfl
  have hrun : (deleteAll.run (⟨zeroed, 0⟩, ofZeroed)).1 = .ok () := by
    unfold deleteAll
    rw [run_deleteWhere (s := (⟨zeroed, 0⟩, ofZeroed)) hknown]
    show ((delete 1 >>= fun _ => pure ()).run (⟨zeroed, 0⟩, ofZeroed)).1 = .ok ()
    have hdelete : (delete 1).run (⟨zeroed, 0⟩, ofZeroed) = (.ok (), _) :=
      delete_of_absent (s := (⟨zeroed, 0⟩, ofZeroed)) (fun _ _ => rfl) rfl
    rw [Step.run_bind, hdelete]
    rfl
  obtain ⟨t, ht⟩ : ∃ t, deleteAll.run (⟨zeroed, 0⟩, ofZeroed) = (.ok (), t) := ⟨_, Prod.ext hrun rfl⟩
  have hcleared := (shelved_open open_zeroed).cleared (s := (⟨zeroed, 0⟩, ofZeroed)) ht
  have hnamed : Named (fun _ => true) (⟨zeroed, 0⟩, ofZeroed) :=
    hcleared.named_iff.mpr ⟨[], (hempties t ht).2.1, nofun⟩
  have hcounts : zeroed.Counts ⟨"/spool"⟩ "page-01.dat" 1 :=
    ⟨["spool"], 0, ⟨"/spool/page-01.dat"⟩, rfl, rfl, rfl, by decide⟩
  exact absurd (hnamed rfl hcounts) (by decide)

theorem clearing_law {dir : Path} {pageSize : Nat} {policy : CachePolicy} {host host' : Host} {c : Cache}
    (hopen : (Cache.open dir pageSize policy).run host = (.ok c, host')) (us : List Use) :
    let s := Step.after (us.map Use.perform) (host', c)
    (∀ index t, (deleteBefore index).run s = (.ok (), t) →
      Cleared (fun page => page < index) s t ∧
        ((∃ left, t.2.existingIndexes t.1.disk = .ok left ∧ ∀ page ∈ left, index ≤ page) ↔
          Named (fun page => page < index) s)) ∧
    ∀ t, deleteAll.run s = (.ok (), t) →
      Cleared (fun _ => true) s t ∧ t.2.size = 0 ∧
        (t.2.existingIndexes t.1.disk = .ok [] ∧ t.2.diskUsage t.1.disk = .ok 0 ↔
          Named (fun _ => true) s) := by
  intro s
  have hs : s.2.Shelved pageSize (closings us (host', c)) :=
    Shelved.after (s := (host', c)) (shelved_open hopen) us
  refine ⟨fun index t h => ?_, fun t h => ?_⟩
  · have hcleared := hs.cleared h
    refine ⟨hcleared, ?_⟩
    rw [hcleared.named_iff]
    simp
  · have hcleared := hs.cleared h
    refine ⟨hcleared, size_eq_zero fun page => hcleared.uncached rfl, ?_⟩
    rw [hcleared.named_iff]
    constructor
    · rintro ⟨hnil, -⟩
      exact ⟨[], hnil, nofun⟩
    · rintro ⟨left, hleft, hnone⟩
      obtain rfl : left = [] := List.eq_nil_iff_forall_not_mem.mpr fun page hpage => nomatch hnone page hpage
      exact ⟨hleft, diskUsage_eq_zero hleft⟩

-- The pages below the second are deleted, and the second stays in the cache.
theorem clearing_law_acquired : ∃ host' c,
    (Cache.open ⟨"/spool"⟩ 64 .pinned).run ⟨zeroed, 0⟩ = (.ok c, host') ∧
      let s := Step.after (List.map Use.perform [.event ⟨0, .acquire 2⟩]) (host', c)
      ∃ t, (deleteBefore 2).run s = (.ok (), t) ∧ Cleared (fun page => page < 2) s t ∧
        s.2.resident[(2 : UInt64)]? = some ⟨0, 0⟩ ∧ t.2.resident[(2 : UInt64)]? = some ⟨0, 0⟩ := by
  refine ⟨_, _, open_zeroed, ?_⟩
  have hlaw := (clearing_law open_zeroed [.event ⟨0, .acquire 2⟩]).1 2
  generalize hs : Step.after (List.map Use.perform [.event ⟨0, .acquire 2⟩]) (⟨zeroed, 0⟩, ofZeroed) = s at hlaw
  have hfound : [("page-01.dat", Node.file 0), ("page-2.dat", Node.file 1)].filterMap
      (PageFile.numbered? ⟨"/spool"⟩) = [(1, ⟨"/spool/page-01.dat"⟩), (2, ⟨"/spool/page-2.dat"⟩)] := by decide
  have hscan : PageFile.scan s.1.disk s.2.dir =
      .ok [(1, ⟨"/spool/page-01.dat"⟩), (2, ⟨"/spool/page-2.dat"⟩)] := by
    subst hs
    show Except.ok (([("page-01.dat", Node.file 0), ("page-2.dat", Node.file 1)].filterMap
      (PageFile.numbered? ⟨"/spool"⟩)).mergeSort _) = _
    rw [hfound, List.mergeSort_of_pairwise (by decide)]
  have hknown : s.2.knownIndexes s.1.disk = .ok [1, 2] := by
    unfold knownIndexes existingIndexes
    rw [hscan]
    subst hs
    rfl
  have hrun : ((deleteBefore 2).run s).1 = .ok () := by
    unfold deleteBefore
    rw [run_deleteWhere hknown]
    show ((delete 1 >>= fun _ => pure ()).run s).1 = .ok ()
    have hcalm : s.1.disk.Calm := by
      subst hs
      exact fun _ _ => rfl
    have habsent : s.1.disk.removeFile (s.2.pagePath 1) = .error .notFound := by
      subst hs
      rfl
    rw [Step.run_bind, delete_of_absent hcalm habsent]
    rfl
  obtain ⟨t, ht⟩ : ∃ t, (deleteBefore 2).run s = (.ok (), t) := ⟨_, Prod.ext hrun rfl⟩
  have hcleared := (hlaw t ht).1
  have hresident : s.2.resident[(2 : UInt64)]? = some ⟨0, 0⟩ := by
    subst hs
    rfl
  exact ⟨t, ht, hcleared, hresident, (hcleared.resident rfl).trans hresident⟩

end Spool.Cache
