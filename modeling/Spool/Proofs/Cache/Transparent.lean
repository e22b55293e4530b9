import Spool.Proofs.Cache.Residents
import Spool.Proofs.Page.Found

namespace Spool

-- An access to a page that is mapped for it alone.
def Page.once (path : Path) (index : UInt64) (size : Nat) (access : Page.Access α) : Step Host α := do
  let page ← Page.map path index size
  let (a, _, disk) ← Step.ofExcept (access page (← get).disk)
  modify fun host => { host with disk }
  return a

namespace Cache

-- The deletion of page files by somebody who knows of no pages but those on disk.
def removeFound (dir : Path) (asked : UInt64 → Bool) : Step Host Unit := do
  let found ← Step.ofExcept ((PageFile.scan (← get).disk dir).map fun pages => pages.map Prod.fst)
  ((Std.TreeSet.ofList found).toList.filter asked).forM fun index =>
    removeFile (PageFile.path dir index)

-- Every page of an open cache is on the file that its path leads to.
structure Mirrors (c : Cache) (d : Disk) (dir : Path) (size : Nat) : Prop where
  dir_eq : c.dir = dir
  pageSize_eq : c.pageSize = size
  notClosed : c.closed = false
  stocks : c.Stocks fun index p => p.Views d (PageFile.path dir index) index size

-- What a step of a cache comes to is what a step of the host alone comes to.
def Mimics (dir : Path) (size : Nat) (x : Action α) (y : Step Host α) (s : Host × Cache) : Prop :=
  Step.Ends x s (y.run s.1).1 fun t => t.1 = (y.run s.1).2 ∧ t.2.Mirrors t.1.disk dir size

theorem Mimics.bind {dir : Path} {size : Nat} {x : Action α} {y : Step Host α} {f : α → Action β}
    {g : α → Step Host β} {s : Host × Cache} (h : Mimics dir size x y s)
    (hrest : ∀ a t, (y.run s.1).1 = .ok a → t.1 = (y.run s.1).2 → t.2.Mirrors t.1.disk dir size →
      Mimics dir size (f a) (g a) t) : Mimics dir size (x >>= f) (y >>= g) s := by
  unfold Mimics at h
  unfold Mimics
  rw [Step.run_bind y]
  cases hy : y.run s.1 with | mk r host
  rw [hy] at h hrest
  cases r with
  | error e => exact h.bind_error
  | ok a =>
      refine Step.Ends.bind h fun t ht => ?_
      have hmimics := hrest a t rfl ht.1 ht.2
      unfold Mimics at hmimics
      rw [ht.1] at hmimics
      exact hmimics

-- The host after an access, which changed nothing if it was refused.
private def hostAfter (host : Host) : Except Error (α × Page × Disk) → Host
  | .error _ => host
  | .ok (_, _, disk) => { host with disk }

section

variable {c : Cache} {d d' : Disk} {dir : Path} {size : Nat} {host host' : Host} {index : UInt64}
  {q : Page} {gone : Location → Prop}

private theorem isFair_views (d : Disk) (dir : Path) (size : Nat) :
    IsFair fun index p => p.Views d (PageFile.path dir index) index size :=
  fun _ _ _ halike h => h.of_alike halike

theorem Mirrors.of_stocks {c' : Cache} (h : c.Mirrors d dir size) (hsame : Restocks c c')
    (hstocks : c'.Stocks fun index p => p.Views d (PageFile.path dir index) index size) :
    c'.Mirrors d dir size := by
  obtain ⟨pages, resident, rfl⟩ := hsame
  exact ⟨h.dir_eq, h.pageSize_eq, h.notClosed, hstocks⟩

theorem Mirrors.of_grows (h : c.Mirrors d dir size) (hgrows : Disk.Grows gone d d')
    (hgone : ∀ index l, c.resident[index]? ≠ none → d.locate (PageFile.path dir index) = .ok l →
      ¬gone l) : c.Mirrors d' dir size := by
  refine ⟨h.dir_eq, h.pageSize_eq, h.notClosed, fun index r hr => ?_⟩
  obtain ⟨p, hp, hviews⟩ := h.stocks hr
  exact ⟨p, hp, hviews.of_grows hgrows fun l => hgone index l (by simp [hr])⟩

section Access

private theorem Mirrors.ends_map (h : c.Mirrors host.disk dir size) {r : Except Error Page}
    (hmap : (Page.map (PageFile.path dir index) index size).run host = (r, host')) :
    Step.Ends (Page.map (c.pagePath index) index c.pageSize) host r (· = host') := by
  rw [pagePath, h.dir_eq, h.pageSize_eq]
  exact ⟨congrArg Prod.fst hmap, congrArg Prod.snd hmap⟩

theorem Mirrors.acquire_error (h : c.Mirrors host.disk dir size) (hpos : 0 < size)
    (hcalm : host.disk.Calm) {e : Error}
    (hmap : (Page.map (PageFile.path dir index) index size).run host = (.error e, host')) :
    Step.Ends (acquire index) (host, c) (.error e) (· = (host', c)) := by
  cases hr : c.resident[index]? with
  | some r =>
      obtain ⟨p, -, hviews⟩ := h.stocks hr
      cases (congrArg Prod.fst hmap).symm.trans (hviews.ends_map hcalm hpos).1
  | none =>
      unfold acquire retain?
      refine Step.ends_get_bind ?_
      simp only [hr, h.notClosed, Bool.false_eq_true, if_false]
      refine (((h.ends_map hmap).onHost c).mono ?_).bind_error
      rintro ⟨_, _⟩ ⟨rfl, rfl⟩
      rfl

private theorem Mirrors.acquire_resident (h : c.Mirrors host.disk dir size) {r : Resident} {p : Page}
    (hr : c.resident[index]? = some r) (hp : c.page? r.page = some p)
    (hviews : p.Views host.disk (PageFile.path dir index) index size) :
    Step.Ends (acquire index) (host, c) (.ok r.page) fun t =>
      t.1 = host ∧ t.2.Mirrors host.disk dir size ∧ t.2.page? r.page = some p.retain := by
  have hstocks := h.stocks.retain (isFair_views _ _ _) hp hviews host.now
  unfold acquire retain?
  refine Step.ends_get_bind ?_
  simp only [hr]
  refine (Step.ends_set (Eq.refl _)).bind ?_
  rintro _ rfl
  exact Step.ends_pure ⟨rfl, h.of_stocks ⟨_, _, rfl⟩ hstocks, page?_modifyPage_self hp Page.retain⟩

private theorem Mirrors.acquire_absent (h : c.Mirrors host.disk dir size)
    (hr : c.resident[index]? = none) (hgrows : Disk.Grows (fun _ => False) host.disk host'.disk)
    (hviews : q.Views host'.disk (PageFile.path dir index) index size)
    (hmap : (Page.map (PageFile.path dir index) index size).run host = (.ok q, host')) :
    Step.Ends (acquire index) (host, c) (.ok c.pages.size) fun t =>
      t.1 = host' ∧ t.2.Mirrors host'.disk dir size ∧ t.2.page? c.pages.size = some q.retain := by
  have hmirrors := h.of_grows hgrows fun _ _ _ _ hgone => hgone
  have hstocks := hmirrors.stocks.takeIn (isFair_views _ _ _) (p := q)
    (hviews.index_eq.symm ▸ hviews) host'.now
  unfold acquire retain?
  refine Step.ends_get_bind ?_
  simp only [hr, h.notClosed, Bool.false_eq_true, if_false]
  refine ((h.ends_map hmap).onHost c).bind ?_
  rintro ⟨_, c'⟩ ⟨rfl, hc⟩
  obtain rfl : c = c' := hc.symm
  exact Step.ends_modifyGet rfl ⟨rfl, hmirrors.of_stocks ⟨_, _, rfl⟩ hstocks, page?_takeIn c _ q⟩

-- What is handed out is a page like the one that mapping gives, and the disk is as mapping leaves it.
theorem Mirrors.acquire_ok (h : c.Mirrors host.disk dir size) (hpos : 0 < size)
    (hwf : host.disk.WellFormed)
    (hmap : (Page.map (PageFile.path dir index) index size).run host = (.ok q, host')) :
    ∃ id, Step.Ends (acquire index) (host, c) (.ok id) fun t =>
      t.1 = host' ∧ t.2.Mirrors host'.disk dir size ∧
        ∃ p, t.2.page? id = some p ∧ q.Alike p ∧
          p.Views host'.disk (PageFile.path dir index) index size := by
  cases hr : c.resident[index]? with
  | some r =>
      obtain ⟨p, hp, hviews⟩ := h.stocks hr
      obtain ⟨hresult, hhost⟩ := hviews.ends_map hwf.calm hpos
      rw [hmap] at hresult hhost
      obtain rfl : host' = host := hhost
      cases hresult
      have halike := Page.alike_retain p
      refine ⟨r.page, (h.acquire_resident hr hp hviews).mono ?_⟩
      rintro ⟨_, c'⟩ ⟨hhost, hmirrors, hp'⟩
      exact ⟨hhost, hmirrors, p.retain, hp', hviews.alike_fresh.symm.trans halike, hviews.of_alike halike⟩
  | none =>
      obtain ⟨r, hresult, hgrows, -, hviews⟩ :=
        Page.ends_map_any hwf.toNumbered (PageFile.path dir index) index size
      rw [hmap] at hresult hgrows hviews
      have hviews := hviews q hresult.symm
      have halike := Page.alike_retain q
      refine ⟨c.pages.size, (h.acquire_absent hr hgrows hviews hmap).mono ?_⟩
      rintro ⟨_, c'⟩ ⟨hhost, hmirrors, hp'⟩
      exact ⟨hhost, hmirrors, q.retain, hp', halike, hviews.of_alike halike⟩

-- What an access to a freshly mapped page comes to, with the page that a cache has in its place.
private theorem once_of_map (hmap : (Page.map (PageFile.path dir index) index size).run host = (.ok q, host'))
    (access : Page.Access α) :
    (Page.once (PageFile.path dir index) index size access).run host =
      ((access q host'.disk).map Prod.fst, hostAfter host' (access q host'.disk)) := by
  unfold Page.once
  rw [Step.run_bind_of_run hmap, Step.run_bind_of_run (Step.run_get host'), Step.run_bind,
    Step.run_ofExcept]
  cases access q host'.disk <;> rfl

private theorem once_of_map_error {e : Error}
    (hmap : (Page.map (PageFile.path dir index) index size).run host = (.error e, host'))
    (access : Page.Access α) :
    (Page.once (PageFile.path dir index) index size access).run host = (.error e, host') := by
  unfold Page.once
  rw [Step.run_bind, hmap]

private theorem Mirrors.ends_release {id : PageId} {p : Page} (h : c.Mirrors host.disk dir size)
    (hp : c.page? id = some p) (hviews : p.Views host.disk (PageFile.path dir index) index size) :
    Step.Ends (releasePage id) (host, c) (.ok ()) fun t =>
      t.1 = host ∧ t.2.Mirrors host.disk dir size := by
  have hstocks := h.stocks.release (isFair_views _ _ _) hp (hviews.index_eq.symm ▸ hviews) host.now
  exact Step.ends_modify ⟨rfl, h.of_stocks (restocks_release c host.now id) hstocks⟩

-- The outcome of an access through the cache, with the page that was handed out.
private theorem Mirrors.ends_onPage (h : c.Mirrors host.disk dir size) {id : PageId} {p : Page}
    (hp : c.page? id = some p) (hviews : p.Views host.disk (PageFile.path dir index) index size)
    {access : Page.Access α} {r : Except Error (α × Page × Disk)}
    (hmatches : Page.Matches q p host.disk r (access p host.disk)) :
    Step.Ends (onPage id access) (host, c) (r.map Prod.fst) fun t =>
      t.1 = hostAfter host r ∧ t.2.Mirrors t.1.disk dir size ∧
        ∃ p, t.2.page? id = some p ∧ p.Views t.1.disk (PageFile.path dir index) index size := by
  unfold onPage
  refine Step.ends_get_bind ?_
  simp only [hp]
  generalize access p host.disk = r' at hmatches
  cases hmatches with
  | error e => exact (Step.ends_ofExcept ⟨rfl, h, p, hp, hviews⟩).bind_error
  | @ok q' p' disk a hq halike hgrows =>
      refine (Step.ends_ofExcept (Eq.refl _)).bind ?_
      rintro _ rfl
      refine (Step.ends_set (Eq.refl _)).bind ?_
      rintro _ rfl
      have hgrown := h.of_grows hgrows fun _ _ _ _ hgone => hgone
      have hstocks := hgrown.stocks.modifyPage id (f := fun _ => p') fun _ _ hp' hviews' => by
        rw [hp] at hp'
        cases hp'
        exact hviews'.of_alike halike
      refine Step.ends_pure ⟨rfl, hgrown.of_stocks (restocks_modifyPage c id _) hstocks, p',
        page?_modifyPage_self hp _, ?_⟩
      exact (hviews.of_grows hgrows fun _ _ hgone => hgone).of_alike halike

theorem Mirrors.withPage (h : c.Mirrors host.disk dir size) (hpos : 0 < size)
    (hwf : host.disk.WellFormed) {access : Page.Access α} (himpartial : Page.Impartial access)
    (index : UInt64) :
    Mimics dir size (withPage index access)
      (Page.once (PageFile.path dir index) index size access) (host, c) := by
  obtain ⟨_, -, hgrows, -⟩ :=
    Page.ends_map_any hwf.toNumbered (PageFile.path dir index) index size
  unfold Mimics Cache.withPage
  cases hmap : (Page.map (PageFile.path dir index) index size).run host with | mk r' host'
  rw [hmap] at hgrows
  cases r' with
  | error e =>
      rw [once_of_map_error hmap]
      refine ((h.acquire_error hpos hwf.calm hmap).mono ?_).bind_error
      rintro _ rfl
      exact ⟨rfl, h.of_grows hgrows fun _ _ _ _ hgone => hgone⟩
  | ok q =>
      obtain ⟨id, hacquire⟩ := h.acquire_ok hpos hwf hmap
      rw [once_of_map hmap]
      refine hacquire.bind ?_
      rintro ⟨host₁, c₁⟩ ⟨hhost₁, h₁, p₁, hp₁, halike, hviews₁⟩
      obtain rfl : host' = host₁ := hhost₁.symm
      have honPage := h₁.ends_onPage hp₁ hviews₁ (himpartial halike hgrows.numbered)
      generalize access q host'.disk = r at honPage
      refine honPage.attempt.bind ?_
      rintro ⟨host₂, c₂⟩ ⟨hhost₂, h₂, p₂, hp₂, hviews₂⟩
      refine (h₂.ends_release hp₂ hviews₂).bind ?_
      rintro ⟨host₃, c₃⟩ ⟨hhost₃, h₃⟩
      obtain rfl : host₂ = host₃ := hhost₃.symm
      exact Step.ends_ofExcept ⟨hhost₂, h₃⟩

theorem grows_once (hwf : host.disk.WellFormed) {access : Page.Access α}
    (himpartial : Page.Impartial access) (dir : Path) (index : UInt64) (size : Nat) :
    Disk.Grows (fun _ => False) host.disk
      ((Page.once (PageFile.path dir index) index size access).run host).2.disk := by
  obtain ⟨_, -, hgrows, -⟩ := Page.ends_map_any hwf.toNumbered (PageFile.path dir index) index size
  cases hmap : (Page.map (PageFile.path dir index) index size).run host with | mk r host'
  rw [hmap] at hgrows
  cases r with
  | error e =>
      rw [once_of_map_error hmap]
      exact hgrows
  | ok q =>
      have hmatches := himpartial (Page.Alike.refl q) hgrows.numbered
      rw [once_of_map hmap]
      generalize access q host'.disk = r at hmatches
      cases hmatches with
      | error e => exact hgrows
      | ok a _ _ hgrows' => exact hgrows.trans hgrows'

end Access

section Delete

private theorem ends_removeFile_any (hwf : host.disk.WellFormed) (path : Path) :
    ∃ r, Step.Ends (removeFile path) host r fun host' =>
      Disk.Grows (fun l => host.disk.locate path = .ok l) host.disk host'.disk := by
  unfold removeFile
  cases hremove : host.disk.removeFile path with
  | ok d =>
      refine ⟨.ok (), Step.ends_onDisk (d := d) ?_ (Disk.grows_removeFile hwf.toNumbered hremove)⟩
      rw [hremove]
  | error e =>
      by_cases hnone : e = .notFound
      · refine ⟨.ok (), Step.ends_onDisk (d := host.disk) ?_ hwf.toNumbered.grows⟩
        rw [hremove, hnone]
      · refine ⟨.error (.io path e.reason), Step.ends_onDisk_error (d := host.disk) ?_ hwf.toNumbered.grows⟩
        rw [hremove]
        cases e <;> first | rfl | exact absurd rfl hnone

theorem Mirrors.uncache (h : c.Mirrors d dir size) (index : UInt64) :
    (c.uncache index).Mirrors d dir size :=
  h.of_stocks (restocks_uncache c index) (h.stocks.uncache (fun _ _ hviews => hviews.index_eq) index)

theorem Mirrors.delete (h : c.Mirrors host.disk dir size) (hwf : host.disk.WellFormed)
    (index : UInt64) :
    Mimics dir size (Cache.delete index) (removeFile (PageFile.path dir index)) (host, c) := by
  obtain ⟨r, hremove⟩ := ends_removeFile_any hwf (PageFile.path dir index)
  obtain ⟨host', hrun, hgrows⟩ := hremove.run_eq
  have hmirrors := h.uncache index
  have hgrown : (c.uncache index).Mirrors host'.disk dir size := by
    refine hmirrors.of_grows hgrows fun other l hresident hother hgone => ?_
    rw [getElem?_resident_uncache, if_pos (Disk.page_eq_of_locate hother hgone)] at hresident
    exact hresident rfl
  unfold Mimics Step.Ends
  rw [hrun, run_delete]
  simp only [syncPage_of_calm hwf.calm, pagePath, h.dir_eq, hrun]
  exact ⟨trivial, trivial, hgrown⟩

private theorem Mirrors.forM {x : UInt64 → Action Unit} {y : UInt64 → Step Host Unit}
    (hmimics : ∀ {host : Host} {c : Cache} (index : UInt64), c.Mirrors host.disk dir size →
      host.disk.WellFormed → Mimics dir size (x index) (y index) (host, c))
    (hy : ∀ index host, host.disk.WellFormed → ((y index).run host).2.disk.WellFormed)
    (h : c.Mirrors host.disk dir size) (hwf : host.disk.WellFormed) (pages : List UInt64) :
    Mimics dir size (pages.forM x) (pages.forM y) (host, c) := by
  induction pages generalizing host c with
  | nil => exact Step.ends_pure ⟨rfl, h⟩
  | cons index pages ih =>
      refine (hmimics index h hwf).bind fun _ t _ hhost hmirrors => ih hmirrors ?_
      rw [hhost]
      exact hy index host hwf

theorem wellFormed_removeFile (hwf : host.disk.WellFormed) (path : Path) :
    ((removeFile path).run host).2.disk.WellFormed := by
  obtain ⟨r, -, hgrows⟩ := ends_removeFile_any hwf path
  exact hgrows.wellFormed hwf

theorem Mirrors.deleteEach (h : c.Mirrors host.disk dir size) (hwf : host.disk.WellFormed)
    (pages : List UInt64) :
    Mimics dir size (pages.forM Cache.delete) (pages.forM fun index => removeFile (PageFile.path dir index))
      (host, c) :=
  h.forM (fun index h hwf => h.delete hwf index)
    (fun index _ hwf => wellFormed_removeFile hwf (PageFile.path dir index)) hwf pages

-- What a cache has in store is found on disk as well.
theorem Mirrors.knownIndexes_eq (h : c.Mirrors d dir size) (hne : dir.text ≠ "")
    (hend : dir.endsInSlash = false) :
    c.knownIndexes d = ((PageFile.scan d dir).map fun pages => pages.map Prod.fst).map fun found =>
      (Std.TreeSet.ofList found).toList := by
  unfold Cache.knownIndexes existingIndexes
  rw [h.dir_eq]
  cases hscan : PageFile.scan d dir with
  | error e => rfl
  | ok pages =>
      refine congrArg Except.ok (Std.TreeSet.equiv_iff_toList_eq.mp ?_)
      refine Std.TreeSet.equiv_iff_forall_mem_iff.mpr fun index => ?_
      rw [Std.TreeSet.mem_ofList, Std.TreeSet.mem_ofList, List.contains_append, Bool.or_eq_true]
      refine ⟨fun hindex => hindex.elim id fun hkept => ?_, Or.inl⟩
      rw [List.contains_iff_mem, Std.TreeMap.mem_keys, Std.TreeMap.mem_iff_isSome_getElem?] at hkept
      obtain ⟨r, hr⟩ := Option.isSome_iff_exists.mp hkept
      obtain ⟨p, -, hviews⟩ := h.stocks hr
      exact List.contains_iff_mem.mpr (Disk.mem_scan hne hend hviews.file hscan)

theorem Mirrors.deleteWhere (h : c.Mirrors host.disk dir size) (hwf : host.disk.WellFormed)
    (hne : dir.text ≠ "") (hend : dir.endsInSlash = false) (asked : UInt64 → Bool) :
    Mimics dir size (Cache.deleteWhere asked) (removeFound dir asked) (host, c) := by
  have hknown := h.knownIndexes_eq hne hend
  unfold Cache.deleteWhere removeFound Mimics
  refine Step.ends_get_bind ?_
  rw [Step.run_bind_of_run (Step.run_get _), Step.run_bind, Step.run_ofExcept]
  dsimp only
  rw [hknown]
  cases (PageFile.scan host.disk dir).map fun pages => pages.map Prod.fst with
  | error e => exact (Step.ends_ofExcept ⟨rfl, h⟩).bind_error
  | ok found =>
      refine (Step.ends_ofExcept (Eq.refl _)).bind ?_
      rintro _ rfl
      exact h.deleteEach hwf _

private theorem grows_forM {x : UInt64 → Step Host Unit}
    (hx : ∀ index host, host.disk.WellFormed → Disk.Grows gone host.disk ((x index).run host).2.disk)
    (hwf : host.disk.WellFormed) (pages : List UInt64) :
    Disk.Grows gone host.disk ((pages.forM x).run host).2.disk := by
  induction pages generalizing host with
  | nil => exact hwf.toNumbered.grows
  | cons index pages ih =>
      have hfirst := hx index host hwf
      show Disk.Grows gone host.disk ((x index >>= fun _ => pages.forM x).run host).2.disk
      rw [Step.run_bind]
      generalize (x index).run host = out at hfirst
      obtain ⟨r, host'⟩ := out
      cases r with
      | error e => exact hfirst
      | ok u => exact hfirst.trans (ih (hfirst.wellFormed hwf))

-- Where the pages are that are found in a directory of some name.
def IsIn (part : String) (l : Location) : Prop :=
  l.tail.head? = some part

theorem isIn_of_locate {d : Disk} {outer : Path} {part : String} (hpart : Path.IsName part)
    {index : UInt64} {l : Location} (h : d.locate (PageFile.path (outer.join part) index) = .ok l) :
    IsIn part l := by
  obtain ⟨place, hwalk, -, rfl⟩ := Disk.of_locate_join (PageFile.isName_name index) h
  rw [Path.steps_join outer hpart] at hwalk
  obtain ⟨base, -, -, rfl⟩ := Disk.of_walk_append_name hpart hwalk
  rfl

-- A deletion takes no files but those of its own directory.
theorem grows_removeFound {outer : Path} {part : String} (hpart : Path.IsName part)
    (hwf : host.disk.WellFormed) (asked : UInt64 → Bool) :
    Disk.Grows (IsIn part) host.disk ((removeFound (outer.join part) asked).run host).2.disk := by
  unfold removeFound
  rw [Step.run_bind_of_run (Step.run_get _), Step.run_bind, Step.run_ofExcept]
  cases (PageFile.scan host.disk (outer.join part)).map fun pages => pages.map Prod.fst with
  | error e => exact hwf.toNumbered.grows
  | ok found =>
      refine grows_forM (fun index host hwf => ?_) hwf _
      obtain ⟨r, -, hgrows⟩ := ends_removeFile_any hwf (PageFile.path (outer.join part) index)
      exact hgrows.mono fun _ => isIn_of_locate hpart

end Delete

section Upkeep

theorem Mirrors.flushed (h : c.Mirrors d dir size) (d' : Disk) : (c.flushed d').Mirrors d dir size :=
  h.of_stocks (restocks_flushed c d') (h.stocks.flushed (isFair_views d dir size) d')

theorem Mirrors.evictIdle (h : c.Mirrors d dir size) (now : Nat) :
    (c.evictIdle now).Mirrors d dir size :=
  h.of_stocks (restocks_evictIdle c now) (h.stocks.evictIdle (fun _ _ hviews => hviews.index_eq) now)

theorem Mirrors.sweep (h : c.Mirrors d dir size) (now : Nat) : (c.sweep now).Mirrors d dir size := by
  have hevict := h.evictIdle now
  unfold Cache.sweep
  split
  · exact h
  · split
    · exact h
    · exact ⟨hevict.dir_eq, hevict.pageSize_eq, hevict.notClosed, hevict.stocks⟩

end Upkeep

section Opening

-- A cache that was just opened.
def blank (dir : Path) (pageSize : Nat) (policy : CachePolicy) (now : Nat) : Cache where
  dir
  pageSize
  policy
  openedAt := now
  sweptAt := now
  pages := #[]
  resident := ∅
  closed := false

-- What the opening of a cache does to the host, and when it was done.
def settle (policy : CachePolicy) (dir : Path) : Step Host Nat := do
  Step.onDisk dir fun d => d.makeDirectories dir
  let host ← get
  Step.ofExcept (startSweeper policy dir host.disk)
  return host.now

theorem open_eq (dir : Path) (pageSize : Nat) (policy : CachePolicy) :
    Cache.open dir pageSize policy =
      settle policy dir >>= fun now => pure (blank dir pageSize policy now) := by
  simp only [Cache.open, settle, blank, bind_assoc, pure_bind]

theorem mirrors_blank (d : Disk) (dir : Path) (size : Nat) (policy : CachePolicy) (now : Nat) :
    (blank dir size policy now).Mirrors d dir size :=
  ⟨rfl, rfl, rfl, stocks_of_empty rfl⟩

end Opening

end

end Cache

end Spool
