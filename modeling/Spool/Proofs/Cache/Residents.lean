import Spool.Cache.Basic
import Spool.Proofs.Page.Alike

namespace Spool

namespace Cache

-- Every page that the cache would hand out for a number is as it should be for that number.
def Stocks (c : Cache) (P : UInt64 → Page → Prop) : Prop :=
  ∀ ⦃index : UInt64⦄ ⦃r : Resident⦄, c.resident[index]? = some r →
    ∃ p, c.page? r.page = some p ∧ P index p

-- What does not tell alike pages apart.
def IsFair (P : UInt64 → Page → Prop) : Prop :=
  ∀ ⦃index : UInt64⦄ ⦃p q : Page⦄, p.Alike q → P index p → P index q

-- A change of which pages a cache has, and of nothing else of it.
def Restocks (c c' : Cache) : Prop :=
  ∃ pages resident, c' = { c with pages, resident }

-- What closing leaves of a cache, whatever is told of it.
def retired (c : Cache) : Cache :=
  if c.closed then c else c.shut

section

variable {c : Cache} {P : UInt64 → Page → Prop} {id : PageId} {p : Page} {index : UInt64}

theorem stocks_of_empty (h : c.resident = ∅) : c.Stocks P := by
  intro index r hr
  rw [h] at hr
  simp at hr

theorem Stocks.modifyPage (h : c.Stocks P) (id : PageId) {f : Page → Page}
    (hf : ∀ ⦃index p⦄, c.page? id = some p → P index p → P index (f p)) :
    (c.modifyPage id f).Stocks P := by
  intro index r hr
  obtain ⟨p, hp, hP⟩ := h hr
  rw [page?_modifyPage]
  split
  · next hid =>
    rw [hp]
    exact ⟨f p, rfl, hf (hid ▸ hp) hP⟩
  · exact ⟨p, hp, hP⟩

theorem getElem?_resident_touch (c : Cache) (now : Nat) (index : UInt64) (id : PageId) (other : UInt64) :
    (c.touch now index id).resident[other]? =
      if index = other then some ⟨id, c.millis now⟩ else c.resident[other]? := by
  simp [Cache.touch, Std.TreeMap.getElem?_insert]

theorem Stocks.touch (h : c.Stocks P) (hp : c.page? id = some p) (hP : P index p) (now : Nat) :
    (c.touch now index id).Stocks P := by
  intro other r hr
  rw [getElem?_resident_touch] at hr
  split at hr
  · next hother =>
    cases hr
    exact ⟨p, hp, hother ▸ hP⟩
  · exact h hr

theorem page?_modifyPage_self (hp : c.page? id = some p) (f : Page → Page) :
    (c.modifyPage id f).page? id = some (f p) := by
  rw [page?_modifyPage, if_pos rfl, hp]
  rfl

-- The page comes back as often as it is asked for.
theorem Stocks.retain (h : c.Stocks P) (hfair : IsFair P) (hp : c.page? id = some p)
    (hP : P index p) (now : Nat) :
    ((c.modifyPage id Page.retain).touch now index id).Stocks P :=
  (h.modifyPage id fun _ _ _ hP => hfair (Page.alike_retain _) hP).touch
    (page?_modifyPage_self hp Page.retain) (hfair (Page.alike_retain p) hP) now

theorem Stocks.release (h : c.Stocks P) (hfair : IsFair P) (hp : c.page? id = some p)
    (hP : P p.index p) (now : Nat) : (c.release now id).Stocks P := by
  have htouched : (if c.isResident p id then c.touch now p.index id else c).Stocks P := by
    split
    · exact h.touch hp hP now
    · exact h
  unfold Cache.release
  rw [hp]
  exact htouched.modifyPage id fun _ _ _ hP => hfair (Page.alike_release _) hP

theorem page?_push (c : Cache) (page : Page) (id : PageId) :
    { c with pages := c.pages.push page : Cache }.page? id =
      if id = c.pages.size then some page else c.page? id := by
  simp only [page?, Array.getElem?_push]

theorem page?_takeIn (c : Cache) (now : Nat) (p : Page) :
    (c.takeIn now p).2.page? c.pages.size = some p.retain := by
  have hnew := page?_push c p.retain c.pages.size
  rwa [if_pos rfl] at hnew

-- A page that was just mapped is the one that the cache hands out.
theorem Stocks.takeIn (h : c.Stocks P) (hfair : IsFair P) (hP : P p.index p) (now : Nat) :
    (c.takeIn now p).2.Stocks P := by
  have hgrown : { c with pages := c.pages.push p.retain : Cache }.Stocks P := by
    intro index r hr
    obtain ⟨q, hq, hQ⟩ := h hr
    refine ⟨q, ?_, hQ⟩
    rw [page?_push, if_neg, hq]
    intro hid
    rw [page?, hid, Array.getElem?_eq_none (Nat.le_refl _)] at hq
    cases hq
  exact hgrown.touch (page?_takeIn c now p) (hfair (Page.alike_retain p) hP) now

-- A page is handed out for its own number alone, so no other number is left without its page.
theorem Stocks.uncache (h : c.Stocks P) (hindex : ∀ ⦃index p⦄, P index p → p.index = index)
    (index : UInt64) : (c.uncache index).Stocks P := by
  unfold Cache.uncache
  cases hr : c.resident[index]? with
  | none => exact h
  | some r =>
      intro other r' hr'
      rw [Std.TreeMap.getElem?_erase] at hr'
      split at hr'
      · cases hr'
      · next hne =>
        obtain ⟨p, hp, hP⟩ := h hr
        obtain ⟨p', hp', hP'⟩ := h hr'
        refine ⟨p', ?_, hP'⟩
        show (c.modifyPage r.page Page.unmap).page? r'.page = some p'
        rw [page?_modifyPage, if_neg, hp']
        intro hsame
        rw [hsame, hp] at hp'
        cases hp'
        exact hne (Std.compare_eq_iff_eq.mpr ((hindex hP).symm.trans (hindex hP')))

theorem run_flush (s : Host × Cache) :
    flush.run s = (s.2.sync s.1.disk, (s.1, s.2.flushed s.1.disk)) := rfl

-- What is told of the pages comes before what is told of the thread.
theorem run_close (s : Host × Cache) :
    close.run s =
      if s.2.closed then (.ok (), s)
      else (s.2.sync s.1.disk >>= fun _ => s.2.stopSweeper s.1.disk, (s.1, s.2.shut)) := by
  obtain ⟨host, c⟩ := s
  unfold close
  rw [Step.run_bind_of_run (Step.run_get _)]
  dsimp only
  split
  · rfl
  · rw [Step.run_bind_of_run (Step.run_set _ _), Step.run_bind, Step.run_ofExcept]
    cases c.sync host.disk <;> rfl

theorem snd_run_close (s : Host × Cache) : (close.run s).2 = (s.1, s.2.retired) := by
  rw [run_close, retired]
  split <;> rfl

-- The page goes out of the cache, and then its file goes, unless the page could not be flushed.
theorem run_delete (index : UInt64) (s : Host × Cache) :
    (delete index).run s =
      match s.2.syncPage s.1.disk index with
      | .error e => (.error e, (s.1, s.2.uncache index))
      | .ok () => (((removeFile (s.2.pagePath index)).run s.1).1,
          (((removeFile (s.2.pagePath index)).run s.1).2, s.2.uncache index)) := by
  obtain ⟨host, c⟩ := s
  unfold delete
  rw [Step.run_bind_of_run (Step.run_get _)]
  dsimp only
  rw [Step.run_bind_of_run (Step.run_set _ _), Step.run_bind, Step.run_ofExcept]
  cases c.syncPage host.disk index with
  | error e => rfl
  | ok u =>
      dsimp only
      rw [Step.run_inside]
      rfl

section Calm

variable {d : Disk} (h : d.Calm)

include h

theorem syncResident_of_calm (c : Cache) (r : Resident) : c.syncResident d r = .ok () := by
  unfold syncResident
  split
  · rfl
  · exact Page.sync_of_calm h _

theorem sync_of_calm (c : Cache) : c.sync d = .ok () := by
  unfold sync
  induction c.resident.values with
  | nil => rfl
  | cons r rs ih =>
      show (c.syncResident d r >>= fun _ => rs.forM (c.syncResident d)) = _
      rw [syncResident_of_calm h, ih]
      rfl

theorem syncPage_of_calm (c : Cache) (index : UInt64) : c.syncPage d index = .ok () := by
  unfold syncPage
  split
  · rfl
  · exact syncResident_of_calm h c _

theorem askSweeper_of_calm (policy : CachePolicy) (call : SystemCall) (dir : Path) (message : String) :
    askSweeper policy call dir message d = .ok () := by
  unfold askSweeper
  split
  · rfl
  · rw [h]
    rfl

end Calm

theorem run_close_of_calm (c : Cache) {host : Host} (h : host.disk.Calm) :
    close.run (host, c) = (.ok (), (host, c.retired)) := by
  rw [run_close, retired]
  split
  · rfl
  · rw [sync_of_calm h, stopSweeper, askSweeper_of_calm h]
    rfl

theorem Restocks.refl (c : Cache) : Restocks c c :=
  ⟨c.pages, c.resident, rfl⟩

theorem Restocks.trans {c' c'' : Cache} (h : Restocks c c') (h' : Restocks c' c'') :
    Restocks c c'' := by
  obtain ⟨_, _, rfl⟩ := h
  obtain ⟨pages, resident, rfl⟩ := h'
  exact ⟨pages, resident, rfl⟩

theorem restocks_modifyPage (c : Cache) (id : PageId) (f : Page → Page) :
    Restocks c (c.modifyPage id f) :=
  ⟨_, _, rfl⟩

theorem restocks_release (c : Cache) (now : Nat) (id : PageId) : Restocks c (c.release now id) := by
  unfold Cache.release
  split
  · exact .refl c
  · dsimp only
    split <;> exact ⟨_, _, rfl⟩

theorem restocks_uncache (c : Cache) (index : UInt64) : Restocks c (c.uncache index) := by
  unfold Cache.uncache
  split <;> exact ⟨_, _, rfl⟩

theorem restocks_foldl {f : Cache → β → Cache} (hf : ∀ c b, Restocks c (f c b)) (bs : List β)
    (c : Cache) : Restocks c (bs.foldl f c) := by
  induction bs generalizing c with
  | nil => exact .refl c
  | cons b bs ih => exact (hf c b).trans (ih (f c b))

theorem restocks_flushed (c : Cache) (d : Disk) : Restocks c (c.flushed d) :=
  restocks_foldl (fun c _ => restocks_modifyPage c _ _) _ c

-- A flush takes no page from the cache.
theorem resident_flushed (c : Cache) (d : Disk) : (c.flushed d).resident = c.resident := by
  unfold Cache.flushed
  exact List.foldlRecOn (motive := fun c' : Cache => c'.resident = c.resident) _ _ rfl fun _ hc _ _ => hc

theorem restocks_evictIdle (c : Cache) (now : Nat) : Restocks c (c.evictIdle now) := by
  unfold Cache.evictIdle
  split
  · exact .refl c
  · exact restocks_foldl (fun c (entry : UInt64 × Resident) => restocks_uncache c entry.1) _ c

private theorem Stocks.foldl {f : Cache → β → Cache}
    (hf : ∀ (c : Cache) (b : β), c.Stocks P → (f c b).Stocks P) (h : c.Stocks P) (bs : List β) :
    (bs.foldl f c).Stocks P := by
  induction bs generalizing c with
  | nil => exact h
  | cons b bs ih => exact ih (hf c b h)

theorem Stocks.flushed (h : c.Stocks P) (hfair : IsFair P) (d : Disk) : (c.flushed d).Stocks P :=
  h.foldl (fun _ r hc => hc.modifyPage r.page fun _ _ _ hP => hfair (Page.alike_flush _ d) hP) _

theorem Stocks.evictIdle (h : c.Stocks P) (hindex : ∀ ⦃index p⦄, P index p → p.index = index)
    (now : Nat) : (c.evictIdle now).Stocks P := by
  unfold Cache.evictIdle
  split
  · exact h
  · exact h.foldl (fun _ entry hc => hc.uncache hindex entry.1) _

end

end Cache

end Spool
