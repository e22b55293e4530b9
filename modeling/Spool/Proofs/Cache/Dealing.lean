import Spool.Proofs.Cache.Dropping
import Spool.Proofs.Step.Ends

namespace Spool.Cache

-- One hold on a page is handed out or given back.
inductive Deal where
  | take (id : PageId)
  | give (id : PageId)
deriving DecidableEq

namespace Deal

def page : Deal → PageId
  | take id => id
  | give id => id

-- How many hold a page afterwards.
def count (d : Deal) (id : PageId) (holders : Nat) : Nat :=
  match d with
  | take other => if id = other then holders + 1 else holders
  | give other => if id = other then holders - 1 else holders

end Deal

structure Deals (now : Nat) (d : Deal) (c c' : Cache) : Prop where
  openedAt : c'.openedAt = c.openedAt
  policy : c'.policy = c.policy
  issued : c.pages.size ≤ c'.pages.size
  orderly : c'.Orderly
  kept : ∀ {index : UInt64} {r : Resident}, c.resident[index]? = some r →
    c'.resident[index]? = some (if r.page = d.page then ⟨d.page, c.millis now⟩ else r)
  fresh : ∀ {index : UInt64} {r : Resident}, c.resident[index]? = none →
    c'.resident[index]? = some r → r = ⟨d.page, c.millis now⟩ ∧ c.pages.size ≤ d.page
  holders : ∀ id, c'.holders id = d.count id (c.holders id)

-- Some deals, one after the other.
inductive Dealings (now : Nat) : Cache → List Deal → Cache → Prop
  | nil (c : Cache) : Dealings now c [] c
  | cons {c c' c'' : Cache} {d : Deal} {ds : List Deal} (h : Deals now d c c')
    (h' : Dealings now c' ds c'') : Dealings now c (d :: ds) c''

section

variable {c c' : Cache} {id : PageId} {p : Page} {index : UInt64} {r : Resident}

theorem holders_of_page? (hp : c.page? id = some p) : c.holders id = p.holders := by
  unfold Cache.holders
  rw [hp]

theorem holders_of_none (hp : c.page? id = none) : c.holders id = 0 := by
  unfold Cache.holders
  rw [hp]

theorem holders_modifyPage_of_ne {other : PageId} (hne : other ≠ id) (f : Page → Page) :
    (c.modifyPage id f).holders other = c.holders other := by
  unfold Cache.holders
  rw [page?_modifyPage, if_neg hne]

theorem holders_modifyPage_self (hp : c.page? id = some p) (f : Page → Page) :
    (c.modifyPage id f).holders id = (f p).holders :=
  holders_of_page? (page?_modifyPage_self hp f)

theorem isFair_open : IsFair fun index p => p.index = index ∧ p.isOpen = true :=
  fun _ _ _ halike h => ⟨halike.index.trans h.1, halike.isOpen.trans h.2⟩

-- Pages that are only held by others than before.
theorem Orderly.modifyPage (h : c.Orderly) (id : PageId) {f : Page → Page} (hf : ∀ p : Page, p.Alike (f p)) :
    (c.modifyPage id f).Orderly where
  resident := h.resident.modifyPage id fun _ p _ => isFair_open (hf p)
  isResident := by
    intro other p' hp' hopen'
    rw [page?_modifyPage] at hp'
    split at hp'
    · obtain ⟨p, hp, rfl⟩ := Option.map_eq_some_iff.mp hp'
      rw [isResident_iff, (hf p).index, resident_modifyPage]
      exact isResident_iff.mp (h.isResident hp ((hf p).isOpen.symm.trans hopen'))
    · exact h.isResident hp' hopen'

-- The entry of a page is renewed.
theorem Orderly.touch (h : c.Orderly) (hr : c.resident[index]? = some r) (now : Nat) :
    (c.touch now index r.page).Orderly where
  resident := by
    obtain ⟨p, hp, hfacts⟩ := h.resident hr
    exact h.resident.touch hp hfacts now
  isResident := by
    intro id p hp hopen
    obtain ⟨r', hr', hid⟩ := isResident_iff.mp (h.isResident hp hopen)
    rw [isResident_iff, getElem?_resident_touch]
    split
    · next hindex =>
      subst hindex
      cases hr.symm.trans hr'
      exact ⟨_, rfl, hid⟩
    · exact ⟨r', hr', hid⟩

-- What is renewed is the entry of one page.
theorem Orderly.kept_touch (h : c.Orderly) (hr : c.resident[index]? = some r) (now : Nat)
    {other : UInt64} {r' : Resident} (hr' : c.resident[other]? = some r') :
    (c.touch now index r.page).resident[other]? =
      some (if r'.page = r.page then ⟨r.page, c.millis now⟩ else r') := by
  rw [getElem?_resident_touch]
  split
  · next hindex =>
    subst hindex
    cases hr.symm.trans hr'
    rw [if_pos rfl]
  · next hne =>
    rw [hr', if_neg]
    exact fun hsame => hne (h.index_eq hr hr' hsame.symm)

theorem none_of_touch {other : UInt64} {r' : Resident} (hr : c.resident[index]? = some r) {now : Nat}
    (hnone : c.resident[other]? = none) : (c.touch now index r.page).resident[other]? ≠ some r' := by
  rw [getElem?_resident_touch]
  split
  · next hindex =>
    subst hindex
    cases hr.symm.trans hnone
  · rw [hnone]
    exact nofun

theorem Orderly.deals_retain (h : c.Orderly) (hr : c.resident[index]? = some r) (now : Nat) :
    Deals now (.take r.page) c ((c.modifyPage r.page Page.retain).touch now index r.page) where
  openedAt := rfl
  policy := rfl
  issued := Nat.le_of_eq Array.size_modify.symm
  orderly := (h.modifyPage r.page Page.alike_retain).touch hr now
  kept := h.kept_touch hr now
  fresh hnone hr' := absurd hr' (none_of_touch hr hnone)
  holders other := by
    show (c.modifyPage r.page Page.retain).holders other = if other = r.page then _ else _
    split
    · next hother =>
      subst hother
      obtain ⟨p, hp, -⟩ := h.resident hr
      rw [holders_of_page? hp, holders_modifyPage_self hp]
      rfl
    · next hne => exact holders_modifyPage_of_ne hne _

private theorem holders_release (hp : c.page? id = some p) (other : PageId) :
    (c.modifyPage id Page.release).holders other = (Deal.give id).count other (c.holders other) := by
  show _ = if other = id then _ else _
  split
  · next hother =>
    subst hother
    rw [holders_of_page? hp, holders_modifyPage_self hp]
    rfl
  · next hne => exact holders_modifyPage_of_ne hne _

theorem Orderly.ne_of_not_isResident (h : c.Orderly) (hp : c.page? id = some p)
    (hstale : c.isResident p id = false) (hr : c.resident[index]? = some r) : r.page ≠ id := by
  rintro rfl
  have hresident : c.isResident p r.page = true :=
    isResident_iff.mpr ⟨r, by rw [h.page_index hr hp, hr], rfl⟩
  cases hstale.symm.trans hresident

theorem Orderly.deals_release (h : c.Orderly) (id : PageId) (now : Nat) :
    Deals now (.give id) c (c.release now id) := by
  unfold Cache.release
  cases hp : c.page? id with
  | none =>
      dsimp only
      have hother : ∀ {index : UInt64} {r : Resident}, c.resident[index]? = some r → r.page ≠ id := by
        rintro index r hr rfl
        obtain ⟨p, hp', -⟩ := h.resident hr
        cases hp.symm.trans hp'
      refine ⟨rfl, rfl, Nat.le_refl _, h, fun hr => ?_, fun hnone hr => ?_, fun other => ?_⟩
      · rw [hr]
        exact congrArg some (if_neg (hother hr)).symm
      · cases hnone.symm.trans hr
      · show _ = if other = id then _ else _
        split
        · next heq => rw [heq, holders_of_none hp]
        · rfl
  | some p =>
      dsimp only
      cases hresident : c.isResident p id with
      | false =>
          refine ⟨rfl, rfl, Nat.le_of_eq Array.size_modify.symm, h.modifyPage id Page.alike_release,
            fun hr => ?_, fun hnone hr => ?_, holders_release hp⟩
          · show c.resident[_]? = _
            rw [hr]
            exact congrArg some (if_neg (h.ne_of_not_isResident hp hresident hr)).symm
          · cases hnone.symm.trans hr
      | true =>
          obtain ⟨r, hr, rfl⟩ := isResident_iff.mp hresident
          exact ⟨rfl, rfl, Nat.le_of_eq Array.size_modify.symm,
            (h.touch hr now).modifyPage r.page Page.alike_release, h.kept_touch hr now,
            fun hnone hr' => absurd hr' (none_of_touch hr hnone), holders_release hp⟩

theorem getElem?_resident_takeIn (c : Cache) (now : Nat) (p : Page) (other : UInt64) :
    (c.takeIn now p).2.resident[other]? =
      if p.index = other then some ⟨c.pages.size, c.millis now⟩ else c.resident[other]? :=
  getElem?_resident_touch { c with pages := c.pages.push p.retain } now p.index c.pages.size other

theorem page?_takeIn_eq (c : Cache) (now : Nat) (p : Page) (id : PageId) :
    (c.takeIn now p).2.page? id = if id = c.pages.size then some p.retain else c.page? id :=
  page?_push c p.retain id

theorem Orderly.deals_takeIn (h : c.Orderly) (hnone : c.resident[p.index]? = none)
    (hopen : p.isOpen = true) (hfree : p.holders = 0) (now : Nat) :
    Deals now (.take c.pages.size) c (c.takeIn now p).2 where
  openedAt := rfl
  policy := rfl
  issued := by
    show c.pages.size ≤ (c.pages.push _).size
    rw [Array.size_push]
    exact Nat.le_succ _
  orderly := by
    refine ⟨h.resident.takeIn isFair_open ⟨rfl, hopen⟩ now, fun {id q} hq hqopen => ?_⟩
    rw [isResident_iff, getElem?_resident_takeIn]
    rw [page?_takeIn_eq] at hq
    split at hq
    · next hid =>
      obtain rfl := Option.some.inj hq
      exact ⟨_, if_pos rfl, hid.symm⟩
    · obtain ⟨r, hr, hid⟩ := isResident_iff.mp (h.isResident hq hqopen)
      have hne : p.index ≠ q.index := fun hsame => by
        rw [hsame, hr] at hnone
        cases hnone
      exact ⟨r, (if_neg hne).trans hr, hid⟩
  kept := by
    intro index r hr
    have hne : p.index ≠ index := fun hsame => by
      rw [hsame, hr] at hnone
      cases hnone
    obtain ⟨q, hq, -⟩ := h.resident hr
    rw [getElem?_resident_takeIn, if_neg hne, hr]
    exact congrArg some (if_neg (Nat.ne_of_lt (lt_size_of_page? hq))).symm
  fresh := by
    intro index r hfree' hr
    rw [getElem?_resident_takeIn] at hr
    split at hr
    · exact ⟨(Option.some.inj hr).symm, Nat.le_refl _⟩
    · cases hfree'.symm.trans hr
  holders := by
    intro id
    show _ = if id = c.pages.size then _ else _
    have hpage := page?_takeIn_eq c now p id
    split
    · next hid =>
      have hunissued : c.page? c.pages.size = none := Array.getElem?_eq_none (Nat.le_refl _)
      rw [if_pos hid] at hpage
      rw [holders_of_page? hpage, hid, holders_of_none hunissued]
      exact congrArg (· + 1) hfree
    · next hid =>
      rw [if_neg hid] at hpage
      unfold Cache.holders
      rw [hpage]

end

-- Whatever the disk says to it, mapping a file gives a new page or an error, and takes no time.
theorem ends_map_fresh (path : Path) (index : UInt64) (size : Nat) (host : Host) :
    ∃ r, Step.Ends (Page.map path index size) host r fun host' =>
      host'.now = host.now ∧
        ∀ p, r = .ok p → p.index = index ∧ p.isOpen = true ∧ p.holders = 0 := by
  unfold Step.Ends
  rw [Page.run_map]
  rcases host.disk.openPage path with ⟨e | file, d⟩
  · exact ⟨_, rfl, rfl, nofun⟩
  dsimp only
  rcases d.fitPage path file size with ⟨e | u, d'⟩
  · exact ⟨_, rfl, rfl, nofun⟩
  dsimp only
  split
  · exact ⟨_, rfl, rfl, nofun⟩
  · refine ⟨_, rfl, rfl, fun p hp => ?_⟩
    cases hp
    exact ⟨rfl, rfl, rfl⟩

section

variable {c : Cache} {host : Host}

-- A page is handed out, or the cache stays as it is.
theorem Orderly.ends_acquire (h : c.Orderly) (host : Host) (index : UInt64) :
    (∃ e, Step.Ends (acquire index) (host, c) (.error e) fun t => t.2 = c) ∨
      ∃ id, Step.Ends (acquire index) (host, c) (.ok id) fun t => t.1.now = host.now ∧
        Deals host.now (.take id) c t.2 ∧ t.2.resident[index]? = some ⟨id, c.millis host.now⟩ := by
  unfold acquire retain?
  cases hr : c.resident[index]? with
  | some r =>
      refine .inr ⟨r.page, Step.ends_get_bind ?_⟩
      simp only [hr]
      refine (Step.ends_set (Eq.refl _)).bind ?_
      rintro _ rfl
      exact Step.ends_pure ⟨rfl, h.deals_retain hr _, (getElem?_resident_touch ..).trans (if_pos rfl)⟩
  | none =>
      cases hclosed : c.closed with
      | true =>
          refine .inl ⟨.cacheClosed c.dir, Step.ends_get_bind ?_⟩
          simp only [hr, hclosed, if_true]
          refine Step.Ends.bind_error ?_
          exact Step.ends_throw rfl
      | false =>
          obtain ⟨r, hmap⟩ := ends_map_fresh (c.pagePath index) index c.pageSize host
          cases r with
          | error e =>
              refine .inl ⟨e, Step.ends_get_bind ?_⟩
              simp only [hr, hclosed, Bool.false_eq_true, if_false]
              exact ((hmap.onHost c).mono fun t ht => ht.2).bind_error
          | ok p =>
              refine .inr ⟨c.pages.size, Step.ends_get_bind ?_⟩
              simp only [hr, hclosed, Bool.false_eq_true, if_false]
              refine (hmap.onHost c).bind ?_
              rintro ⟨host', c'⟩ ⟨⟨hnow, hfresh⟩, hc⟩
              obtain rfl : c = c' := hc.symm
              obtain ⟨hindex, hopen, hfree⟩ := hfresh p rfl
              have hdeals := h.deals_takeIn (hindex ▸ hr) hopen hfree host'.now
              have hnew := getElem?_resident_takeIn c host'.now p index
              rw [hnow, if_pos hindex] at hnew
              rw [hnow] at hdeals
              refine Step.ends_modifyGet (t := (host', (c.takeIn host'.now p).2)) rfl ⟨hnow, ?_⟩
              rw [hnow]
              exact ⟨hdeals, hnew⟩

end

end Spool.Cache
