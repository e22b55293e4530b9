import Spool.Proofs.Cache.Residents

namespace Spool

-- A page that may have been closed. Nobody's hold on it has changed.
structure Page.Shuts (p p' : Page) (shut : Bool) : Prop where
  index : p'.index = p.index
  holders : p'.holders = p.holders
  isOpen : p'.isOpen = (p.isOpen && !shut)

namespace Page

variable {p p' p'' : Page} {shut shut' : Bool}

theorem Shuts.refl (p : Page) : p.Shuts p false :=
  ⟨rfl, rfl, (Bool.and_true _).symm⟩

theorem Shuts.trans (h : p.Shuts p' shut) (h' : p'.Shuts p'' shut') : p.Shuts p'' (shut || shut') where
  index := h'.index.trans h.index
  holders := h'.holders.trans h.holders
  isOpen := by rw [h'.isOpen, h.isOpen, Bool.not_or, Bool.and_assoc]

theorem shuts_unmap (p : Page) : p.Shuts p.unmap true := by
  unfold unmap
  split
  · exact ⟨rfl, rfl, (Bool.and_false _).symm⟩
  · next hclosed => exact ⟨rfl, rfl, by simpa using hclosed⟩

theorem Shuts.of_alike (h : p.Alike p') (hholders : p'.holders = p.holders) : p.Shuts p' false :=
  ⟨h.index, hholders, h.isOpen.trans (Bool.and_true _).symm⟩

theorem holders_flush (p : Page) (d : Disk) : (p.flush d).2.holders = p.holders := by
  unfold flush
  split
  · split <;> rfl
  · rfl

theorem shuts_flush (p : Page) (d : Disk) : p.Shuts (p.flush d).2 false :=
  .of_alike (alike_flush p d) (holders_flush p d)

end Page

namespace Cache

structure Orderly (c : Cache) : Prop where
  resident : c.Stocks fun index p => p.index = index ∧ p.isOpen = true
  isResident : ∀ {id p}, c.page? id = some p → p.isOpen = true → c.isResident p id = true

-- The cache gave up its pages of some numbers and closed them.
structure Drops (gone : UInt64 → Bool) (c c' : Cache) : Prop where
  openedAt : c'.openedAt = c.openedAt
  policy : c'.policy = c.policy
  issued : c'.pages.size = c.pages.size
  resident : ∀ index, c'.resident[index]? = if gone index then none else c.resident[index]?
  page : ∀ {id p}, c.page? id = some p → ∃ p', c'.page? id = some p' ∧ p.Shuts p' (gone p.index)

section

variable {c c' c'' : Cache} {gone gone' : UInt64 → Bool} {id : PageId} {p : Page} {index : UInt64}
  {r : Resident}

theorem isResident_iff : c.isResident p id = true ↔ ∃ r, c.resident[p.index]? = some r ∧ r.page = id := by
  simp [isResident]

theorem lt_size_of_page? (hp : c.page? id = some p) : id < c.pages.size :=
  (Array.getElem?_eq_some_iff.mp hp).1

theorem exists_page? (hid : id < c.pages.size) : ∃ p, c.page? id = some p :=
  ⟨_, Array.getElem?_eq_getElem hid⟩

theorem orderly_of_empty (hpages : c.pages = #[]) (hresident : c.resident = ∅) : c.Orderly where
  resident := stocks_of_empty hresident
  isResident hp := by
    simp [page?, hpages] at hp

theorem Orderly.page_index (h : c.Orderly) (hr : c.resident[index]? = some r)
    (hp : c.page? r.page = some p) : p.index = index := by
  obtain ⟨q, hq, hindex, -⟩ := h.resident hr
  cases hp.symm.trans hq
  exact hindex

-- A page is there for one number only.
theorem Orderly.index_eq {other : UInt64} {r' : Resident} (h : c.Orderly)
    (hr : c.resident[index]? = some r) (hr' : c.resident[other]? = some r') (hsame : r.page = r'.page) :
    index = other := by
  obtain ⟨p, hp, hindex, -⟩ := h.resident hr
  exact hindex.symm.trans (h.page_index hr' (hsame ▸ hp))

namespace Drops

theorem refl (c : Cache) : Drops (fun _ => false) c c :=
  ⟨rfl, rfl, rfl, fun _ => rfl, fun hp => ⟨_, hp, .refl _⟩⟩

theorem of_eq (h : c' = c) : Drops (fun _ => false) c c' :=
  h ▸ refl c

theorem trans (h : Drops gone c c') (h' : Drops gone' c' c'') :
    Drops (fun index => gone index || gone' index) c c'' where
  openedAt := h'.openedAt.trans h.openedAt
  policy := h'.policy.trans h.policy
  issued := h'.issued.trans h.issued
  resident index := by
    rw [h'.resident, h.resident]
    cases gone index <;> cases gone' index <;> rfl
  page hp := by
    obtain ⟨p', hp', hshuts⟩ := h.page hp
    obtain ⟨p'', hp'', hshuts'⟩ := h'.page hp'
    exact ⟨p'', hp'', hshuts.index ▸ hshuts.trans hshuts'⟩

theorem congr (h : Drops gone c c') (hgone : ∀ index, gone' index = gone index) : Drops gone' c c' :=
  (funext hgone : gone' = gone) ▸ h

theorem exists_page (h : Drops gone c c') {p' : Page} (hp' : c'.page? id = some p') :
    ∃ p, c.page? id = some p ∧ p.Shuts p' (gone p.index) := by
  obtain ⟨p, hp⟩ := exists_page? (h.issued ▸ lt_size_of_page? hp')
  obtain ⟨q, hq, hshuts⟩ := h.page hp
  cases hp'.symm.trans hq
  exact ⟨p, hp, hshuts⟩

theorem orderly (hdrops : Drops gone c c') (h : c.Orderly) : c'.Orderly where
  resident := by
    intro index r hr
    rw [hdrops.resident] at hr
    cases hgone : gone index with
    | true => simp [hgone] at hr
    | false =>
        rw [hgone] at hr
        obtain ⟨p, hp, rfl, hopen⟩ := h.resident hr
        obtain ⟨p', hp', hshuts⟩ := hdrops.page hp
        refine ⟨p', hp', hshuts.index, ?_⟩
        rw [hshuts.isOpen, hopen, hgone]
        rfl
  isResident := by
    intro id p' hp' hopen'
    obtain ⟨p, hp, hshuts⟩ := hdrops.exists_page hp'
    rw [hshuts.isOpen, Bool.and_eq_true, Bool.not_eq_true'] at hopen'
    obtain ⟨r, hr, hid⟩ := isResident_iff.mp (h.isResident hp hopen'.1)
    refine isResident_iff.mpr ⟨r, ?_, hid⟩
    rw [hshuts.index, hdrops.resident, hopen'.2]
    exact hr

theorem holders_eq (h : Drops gone c c') (id : PageId) : c'.holders id = c.holders id := by
  unfold Cache.holders
  cases hp : c.page? id with
  | none =>
      have hnone : c'.page? id = none := by
        rw [page?, Array.getElem?_eq_none_iff] at hp ⊢
        rwa [h.issued]
      rw [hnone]
  | some p =>
      obtain ⟨p', hp', hshuts⟩ := h.page hp
      rw [hp']
      exact hshuts.holders

end Drops

-- Pages that are closed or flushed one after the other.
theorem exists_page?_foldl {f : Page → Page} {shut : Bool} (hf : ∀ p : Page, p.Shuts (f p) shut)
    (rs : List Resident) (hp : c.page? id = some p) :
    ∃ p', (rs.foldl (fun c r => c.modifyPage r.page f) c).page? id = some p' ∧
      p.Shuts p' (shut && rs.any fun r => r.page = id) := by
  induction rs generalizing c p with
  | nil => exact ⟨p, hp, Bool.and_false _ ▸ .refl p⟩
  | cons r rs ih =>
      by_cases hid : id = r.page
      · subst hid
        obtain ⟨p', hp', hshuts⟩ := ih (page?_modifyPage_self hp f)
        refine ⟨p', hp', ?_⟩
        have hboth := (hf p).trans hshuts
        cases shut <;> simpa using hboth
      · have hkept : (c.modifyPage r.page f).page? id = some p := by
          rw [page?_modifyPage, if_neg hid, hp]
        obtain ⟨p', hp', hshuts⟩ := ih hkept
        refine ⟨p', hp', ?_⟩
        simpa [Ne.symm hid] using hshuts

theorem foldl_modifyPage_eq (f : Page → Page) (rs : List Resident) (c : Cache) :
    ∃ pages, rs.foldl (fun c r => c.modifyPage r.page f) c = { c with pages } ∧
      pages.size = c.pages.size := by
  induction rs generalizing c with
  | nil => exact ⟨c.pages, rfl, rfl⟩
  | cons r rs ih =>
      obtain ⟨pages, heq, hsize⟩ := ih (c.modifyPage r.page f)
      exact ⟨pages, heq, hsize.trans Array.size_modify⟩

theorem drops_flushed (c : Cache) (d : Disk) : Drops (fun _ => false) c (c.flushed d) := by
  have hpage : ∀ {id p}, c.page? id = some p →
      ∃ p', (c.flushed d).page? id = some p' ∧ p.Shuts p' false :=
    exists_page?_foldl (fun p => p.shuts_flush d) c.resident.values
  obtain ⟨pages, heq, hsize⟩ := foldl_modifyPage_eq (fun p => (p.flush d).2) c.resident.values c
  unfold Cache.flushed at hpage ⊢
  rw [heq] at hpage ⊢
  exact ⟨rfl, rfl, hsize, fun _ => rfl, hpage⟩

theorem mem_values_iff {r : Resident} :
    r ∈ c.resident.values ↔ ∃ index : UInt64, c.resident[index]? = some r := by
  have hvalues : c.resident.values = c.resident.toList.map Prod.snd := by
    have hfoldr : c.resident.values = c.resident.foldr (fun _ r rs => r :: rs) [] := rfl
    rw [hfoldr, Std.TreeMap.foldr_eq_foldr_toList]
    induction c.resident.toList with
    | nil => rfl
    | cons entry entries ih => rw [List.foldr_cons, ih, List.map_cons]
  rw [hvalues, List.mem_map]
  constructor
  · rintro ⟨⟨index, r⟩, hmem, rfl⟩
    exact ⟨index, Std.TreeMap.mem_toList_iff_getElem?_eq_some.mp hmem⟩
  · rintro ⟨index, hr⟩
    exact ⟨(index, r), Std.TreeMap.mem_toList_iff_getElem?_eq_some.mpr hr, rfl⟩

namespace Orderly

variable (h : c.Orderly)

include h

theorem drops_emptied : Drops (fun _ => true) c c.emptied := by
  obtain ⟨pages, heq, hsize⟩ := foldl_modifyPage_eq Page.unmap c.resident.values c
  have hclosed : ∀ {id p}, c.page? id = some p →
      ∃ p', c.emptied.page? id = some p' ∧ p.Shuts p' true := by
    intro id p hp
    obtain ⟨p', hp', hshuts⟩ := exists_page?_foldl Page.shuts_unmap c.resident.values hp
    refine ⟨p', hp', hshuts.index, hshuts.holders, ?_⟩
    rw [hshuts.isOpen]
    -- A page that is open is one of those that the cache has.
    cases hopen : p.isOpen with
    | false => rfl
    | true =>
        obtain ⟨r, hr, hid⟩ := isResident_iff.mp (h.isResident hp hopen)
        have hany : (c.resident.values.any fun r => r.page = id) = true :=
          List.any_eq_true.mpr ⟨r, mem_values_iff.mpr ⟨_, hr⟩, by simp [hid]⟩
        rw [hany]
        rfl
  unfold Cache.emptied at hclosed ⊢
  rw [heq] at hclosed ⊢
  exact ⟨rfl, rfl, hsize, fun _ => Std.TreeMap.getElem?_emptyc, hclosed⟩

-- A page that is not the one of a number stays as it is when that number goes.
theorem shuts_self (hp : c.page? id = some p)
    (hother : ∀ r : Resident, c.resident[index]? = some r → r.page ≠ id) : p.Shuts p (p.index = index) := by
  refine ⟨rfl, rfl, ?_⟩
  cases hopen : p.isOpen with
  | false => rfl
  | true =>
      obtain ⟨r, hr, hid⟩ := isResident_iff.mp (h.isResident hp hopen)
      have hne : p.index ≠ index := by
        rintro rfl
        exact hother r hr hid
      simp [hne]

theorem drops_uncache (index : UInt64) : Drops (fun other => other = index) c (c.uncache index) := by
  have hresident := c.getElem?_resident_uncache index
  unfold Cache.uncache at hresident ⊢
  cases hr : c.resident[index]? with
  | none =>
      rw [hr] at hresident
      refine ⟨rfl, rfl, rfl, fun other => by simpa using hresident other, fun {id p} hp => ?_⟩
      exact ⟨p, hp, h.shuts_self hp fun r hr' => by cases hr.symm.trans hr'⟩
  | some r =>
      rw [hr] at hresident
      refine ⟨rfl, rfl, Array.size_modify, fun other => by simpa using hresident other, fun {id p} hp => ?_⟩
      show ∃ p', (c.modifyPage r.page Page.unmap).page? id = some p' ∧ _
      by_cases hid : id = r.page
      · subst hid
        refine ⟨p.unmap, page?_modifyPage_self hp _, ?_⟩
        simpa [h.page_index hr hp] using Page.shuts_unmap p
      · rw [page?_modifyPage, if_neg hid]
        refine ⟨p, hp, h.shuts_self hp fun r' hr' => ?_⟩
        cases hr.symm.trans hr'
        exact Ne.symm hid

theorem drops_foldl_uncache (indexes : List UInt64) :
    Drops (fun index => indexes.contains index) c (indexes.foldl uncache c) := by
  induction indexes generalizing c with
  | nil => exact .refl c
  | cons index indexes ih =>
      have hfirst := h.drops_uncache index
      exact (hfirst.trans (ih (hfirst.orderly h))).congr fun other => by
        rw [List.contains_cons]
        rfl

theorem drops_shut : Drops (fun _ => true) c c.shut := by
  have hopen : { c with closed := true }.Orderly := ⟨h.resident, h.isResident⟩
  obtain ⟨hopenedAt, hpolicy, hissued, hresident, hpage⟩ := hopen.drops_emptied
  exact ⟨hopenedAt, hpolicy, hissued, hresident, hpage⟩

theorem drops_close (host : Host) : Drops (fun _ => !c.closed) c (close.run (host, c)).2.2 := by
  rw [run_close]
  cases hclosed : c.closed with
  | true => exact .refl c
  | false => exact h.drops_shut

-- A pass takes the pages that nobody holds and that were idle for long enough.
theorem drops_evictIdle {ttl : Span} (httl : c.policy.ttl? = some ttl) (now : Nat) :
    Drops (fun index => c.resident[index]?.any (c.isIdle now ttl)) c (c.evictIdle now) := by
  have hmap : ∀ (entries : List (UInt64 × Resident)) (c : Cache),
      entries.foldl (fun c entry => c.uncache entry.1) c = (entries.map Prod.fst).foldl uncache c :=
    fun entries c => (List.foldl_map ..).symm
  unfold Cache.evictIdle
  simp only [httl, hmap]
  refine (h.drops_foldl_uncache _).congr fun index => ?_
  rw [Bool.eq_iff_iff, List.contains_iff_mem, List.mem_map]
  constructor
  · intro hany
    cases hr : c.resident[index]? with
    | none =>
        rw [hr] at hany
        cases hany
    | some r =>
        rw [hr] at hany
        have hmem := Std.TreeMap.mem_toList_iff_getElem?_eq_some.mpr hr
        exact ⟨(index, r), List.mem_filter.mpr ⟨hmem, hany⟩, rfl⟩
  · rintro ⟨⟨_, r⟩, hmem, rfl⟩
    obtain ⟨hmem, hidle⟩ := List.mem_filter.mp hmem
    rw [Std.TreeMap.mem_toList_iff_getElem?_eq_some.mp hmem]
    exact hidle

theorem drops_delete (host : Host) (index : UInt64) :
    Drops (fun other => other = index) c ((delete index).run (host, c)).2.2 := by
  have hcache : ((delete index).run (host, c)).2.2 = c.uncache index := by
    rw [run_delete]
    dsimp only
    split <;> rfl
  rw [hcache]
  exact h.drops_uncache index

theorem exists_drops_forM_delete (host : Host) (indexes : List UInt64) :
    ∃ gone, Drops gone c ((indexes.forM delete).run (host, c)).2.2 := by
  induction indexes generalizing host c with
  | nil => exact ⟨_, .refl c⟩
  | cons index indexes ih =>
      have hfirst := h.drops_delete host index
      have hforM : (index :: indexes).forM delete = delete index >>= fun _ => indexes.forM delete := rfl
      rw [hforM, Step.run_bind]
      cases hrun : (delete index).run (host, c) with | mk result t
      rw [hrun] at hfirst
      cases result with
      | error e => exact ⟨_, hfirst⟩
      | ok u =>
          obtain ⟨gone, hrest⟩ := ih (hfirst.orderly h) t.1
          exact ⟨_, hfirst.trans hrest⟩

theorem exists_drops_deleteWhere (host : Host) (asked : UInt64 → Bool) :
    ∃ gone, Drops gone c ((deleteWhere asked).run (host, c)).2.2 := by
  unfold deleteWhere
  rw [Step.run_bind, Step.run_get]
  show ∃ gone, Drops gone c ((Step.ofExcept (c.knownIndexes host.disk) >>= fun known =>
    (known.filter asked).forM delete).run (host, c)).2.2
  rw [Step.run_bind, Step.run_ofExcept]
  cases c.knownIndexes host.disk with
  | error e => exact ⟨_, .refl c⟩
  | ok known => exact h.exists_drops_forM_delete host _

end Orderly

theorem evictIdle_eq_self (httl : c.policy.ttl? = none) (now : Nat) : c.evictIdle now = c := by
  unfold Cache.evictIdle
  rw [httl]

end

end Cache

end Spool
