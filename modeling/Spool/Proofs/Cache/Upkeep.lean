import Spool.Proofs.Cache.Delete
import Spool.Proofs.Disk.Site

namespace Spool.Cache

section

variable {c : Cache} {d : Disk} {folder : Location}

theorem Copes.flushed (h : c.Copes d folder) (d' : Disk) : (c.flushed d').Copes d folder :=
  h.restock (restocks_flushed c d') (h.stocks.flushed (isFair_maps _ _ _) d')

-- Whatever is said of it, a flush touches no file.
theorem Copes.flush {host : Host} (h : c.Copes host.disk folder) :
    Step.Ends flush (host, c) (c.sync host.disk) fun t =>
      Uses folder (host, c) t (host.disk.image folder) :=
  ⟨rfl, (h.flushed host.disk).uses (restocks_flushed c host.disk) fun page => by
    rw [resident_flushed]⟩

theorem Copes.evictIdle (h : c.Copes d folder) (now : Nat) : (c.evictIdle now).Copes d folder :=
  h.restock (restocks_evictIdle c now) (h.stocks.evictIdle (fun _ _ hmaps => hmaps.index_eq) now)

-- A look for idle pages is noted, and that is all.
theorem sweep_cases (c : Cache) (now : Nat) :
    c.sweep now = c ∨ c.sweep now = { c.evictIdle now with sweptAt := now } := by
  unfold Cache.sweep
  split
  · exact .inl rfl
  · split
    · exact .inl rfl
    · exact .inr rfl

theorem Copes.sweep (h : c.Copes d folder) (now : Nat) : (c.sweep now).Copes d folder := by
  have hevict := h.evictIdle now
  rcases c.sweep_cases now with hsweep | hsweep
  · rwa [hsweep]
  · rw [hsweep]
    exact ⟨hevict.shelf, hevict.pageSize_pos, hevict.pageSize_lt, hevict.notClosed, hevict.resident⟩

theorem dir_sweep (c : Cache) (now : Nat) : (c.sweep now).dir = c.dir := by
  rcases c.sweep_cases now with hsweep | hsweep
  · rw [hsweep]
  · rw [hsweep]
    exact (restocks_evictIdle c now).dir_eq

theorem pageSize_sweep (c : Cache) (now : Nat) : (c.sweep now).pageSize = c.pageSize := by
  rcases c.sweep_cases now with hsweep | hsweep
  · rw [hsweep]
  · rw [hsweep]
    exact (restocks_evictIdle c now).pageSize_eq

theorem Sound.flushed (h : c.Sound d folder) (d' : Disk) : Stays d folder c (c.flushed d') :=
  h.restock (restocks_flushed c d') (h.copes.flushed d')

end

-- Opening finds the files as they are.
theorem Sound.flush {host : Host} (h : c.Sound host.disk folder) :
    Step.Ends Cache.flush (host, c) (.ok ()) fun t => t.1 = host ∧ Stays host.disk folder c t.2 :=
  ⟨sync_of_calm h.houses.wellFormed.calm c, rfl, h.flushed host.disk⟩

theorem ends_open {host : Host} {dir : Path} {base : Location} {name : String}
    (h : host.disk.Site dir base) (hname : Disk.PartName name) {size : Nat} (hpos : 0 < size)
    (hsize : size < Disk.maxFileSize) (policy : CachePolicy) :
    ∃ c, Step.Ends (Cache.open (dir.join name) size policy) host (.ok c) fun host' =>
      host'.now = host.now ∧ Disk.Frame [base] host.disk host'.disk ∧ host'.disk.Site dir base ∧
      c.dir = dir.join name ∧ c.pageSize = size ∧ c.Sound host'.disk (name :: base) := by
  obtain ⟨d, hmake, hframe, hsite, hpart⟩ := h.makeDirectories hname
  refine ⟨{ dir := dir.join name, pageSize := size, policy, openedAt := host.now, sweptAt := host.now,
            pages := #[], resident := ∅, closed := false }, ?_⟩
  unfold Cache.open
  refine (Step.ends_onDisk (f := fun d => d.makeDirectories _) hmake
    (Eq.refl { host with disk := d })).bind ?_
  rintro _ rfl
  refine Step.ends_get_bind ?_
  have hstart : startSweeper policy (dir.join name) d = .ok () :=
    askSweeper_of_calm hsite.wellFormed.calm policy _ _ _
  dsimp only
  rw [hstart]
  refine (Step.ends_ofExcept (Eq.refl _)).bind ?_
  rintro _ rfl
  refine Step.ends_pure ⟨rfl, hframe, hsite, rfl, rfl, ?_⟩
  exact ⟨hsite.houses hname hpart, hpos, hsize, rfl, fun hr => by simp at hr⟩

-- In a part that is there, no file is touched, whether or not somebody can be had to look for idle pages.
theorem ends_open_self {host : Host} {dir : Path} {base : Location} {name : String}
    (h : host.disk.Ground dir base) (hname : Disk.PartName name)
    (hpart : host.disk.node? (name :: base) = some .directory) {size : Nat} (hpos : 0 < size)
    (hsize : size < Disk.maxFileSize) (policy : CachePolicy) :
    ∃ c, Step.Ends (Cache.open (dir.join name) size policy) host
        ((startSweeper policy (dir.join name) host.disk).map fun _ => c) (· = host) ∧
      c.dir = dir.join name ∧ c.pageSize = size ∧ c.resident = ∅ ∧ c.Copes host.disk (name :: base) := by
  refine ⟨{ dir := dir.join name, pageSize := size, policy, openedAt := host.now, sweptAt := host.now,
            pages := #[], resident := ∅, closed := false }, ?_, rfl, rfl, rfl, ?_⟩
  · have hmake := h.makeDirectories_self hname hpart
    unfold Cache.open
    refine (Step.ends_onDisk (f := fun d => d.makeDirectories _) hmake (Eq.refl host)).bind ?_
    rintro _ rfl
    have hstart : Step.Ends (Step.ofExcept (startSweeper policy (dir.join name) host.disk)) host _ (· = host) :=
      Step.ends_ofExcept rfl
    exact Step.ends_get_bind (hstart.map fun _ => Cache.mk _ _ _ _ _ _ _ _)
  · exact ⟨h.shelf hname hpart, hpos, hsize, rfl, fun hr => by simp at hr⟩

end Spool.Cache
