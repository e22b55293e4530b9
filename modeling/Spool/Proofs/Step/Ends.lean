import Spool.Step

namespace Spool.Step

-- What a step comes to from a state: its result, and what is true of the state that it leaves behind.
def Ends (x : Step σ α) (s : σ) (r : Except Error α) (post : σ → Prop) : Prop :=
  (x.run s).1 = r ∧ post (x.run s).2

-- The state after some steps, each of which may have failed.
def after (xs : List (Step σ Unit)) (s : σ) : σ :=
  xs.foldl (fun s x => (x.run s).2) s

-- What the steps of a run add up to.
def total (count : ι → Nat) : List ι → Nat
  | [] => 0
  | i :: is => count i + total count is

theorem after_append (xs ys : List (Step σ Unit)) (s : σ) :
    after (xs ++ ys) s = after ys (after xs s) :=
  List.foldl_append

theorem total_append (count : ι → Nat) (is js : List ι) :
    total count (is ++ js) = total count is + total count js := by
  induction is with
  | nil => exact (Nat.zero_add _).symm
  | cons i is ih => rw [List.cons_append, total, total, ih, Nat.add_assoc]

-- The results of a step that is taken again and again, and the state in the end.
def series (x : Step σ α) : Nat → σ → List (Except Error α) × σ
  | 0, s => ([], s)
  | n + 1, s => ((x.run s).1 :: (series x n (x.run s).2).1, (series x n (x.run s).2).2)

-- Something holds of each step of a run and of the state that it starts from.
def Along (run : ι → Step σ Unit) (holds : ι → σ → Prop) : List ι → σ → Prop
  | [], _ => True
  | i :: is, s => holds i s ∧ Along run holds is ((run i).run s).2

def decidableAlong {run : ι → Step σ Unit} {holds : ι → σ → Prop}
    (h : ∀ i s, Decidable (holds i s)) : ∀ is s, Decidable (Along run holds is s)
  | [], _ => .isTrue trivial
  | i :: is, s =>
    have := h i s
    have : Decidable (Along run holds is ((run i).run s).2) := decidableAlong h is _
    inferInstanceAs (Decidable (_ ∧ _))

instance {run : ι → Step σ Unit} {holds : ι → σ → Prop} [h : ∀ i s, Decidable (holds i s)]
    (is : List ι) (s : σ) : Decidable (Along run holds is s) :=
  decidableAlong h is s

section

variable {x : Step σ α} {f : α → Step σ β} {s : σ} {r : Except Error α} {a : α} {post : σ → Prop}

theorem eq_ok_of_toOption (h : r.toOption = some a) : r = .ok a := by
  cases r with
  | error e => cases h
  | ok _ =>
      cases h
      rfl

theorem Ends.mono {post' : σ → Prop} (h : Ends x s r post) (hpost : ∀ t, post t → post' t) :
    Ends x s r post' :=
  ⟨h.1, hpost _ h.2⟩

theorem ends_pure (h : post s) : Ends (pure a) s (.ok a) post :=
  ⟨rfl, h⟩

theorem ends_throw {e : Error} (h : post s) : Ends (throw e : Step σ α) s (.error e) post :=
  ⟨rfl, h⟩

theorem ends_ofExcept (h : post s) : Ends (ofExcept r) s r post :=
  ⟨rfl, h⟩

theorem ends_modify {g : σ → σ} (h : post (g s)) : Ends (modify g) s (.ok ⟨⟩) post :=
  ⟨rfl, h⟩

theorem ends_modifyGet {g : σ → α × σ} {t : σ} (hg : g s = (a, t)) (h : post t) :
    Ends (modifyGet g) s (.ok a) post := by
  unfold Ends
  rw [run_modifyGet, hg]
  exact ⟨rfl, h⟩

theorem ends_set {t : σ} (h : post t) : Ends (set t) s (.ok ⟨⟩) post :=
  ⟨rfl, h⟩

theorem Ends.run_eq (h : Ends x s r post) : ∃ t, x.run s = (r, t) ∧ post t :=
  ⟨(x.run s).2, Prod.ext h.1 rfl, h.2⟩

theorem Ends.of_run {r' : Except Error α} {t : σ} (h : Ends x s r post) (hrun : x.run s = (r', t)) : post t := by
  have hpost := h.2
  rwa [hrun] at hpost

-- A run that comes down to another comes to what that one does.
theorem Ends.of_run_eq {y : Step σ α} {t : σ} (hrun : x.run s = y.run t) (h : Ends y t r post) :
    Ends x s r post := by
  unfold Ends at h ⊢
  rw [hrun]
  exact h

theorem run_bind_of_run {t : σ} (h : x.run s = (.ok a, t)) : (x >>= f).run s = (f a).run t := by
  rw [run_bind, h]

theorem ends_bind_of_run {r : Except Error β} {t : σ} (hrun : x.run s = (.ok a, t))
    (h : Ends (f a) t r post) : Ends (x >>= f) s r post :=
  h.of_run_eq (run_bind_of_run hrun)

theorem Ends.bind {mid : σ → Prop} {r : Except Error β} (h : Ends x s (.ok a) mid)
    (hrest : ∀ t, mid t → Ends (f a) t r post) : Ends (x >>= f) s r post := by
  obtain ⟨t, hrun, hmid⟩ := h.run_eq
  exact ends_bind_of_run hrun (hrest t hmid)

theorem Ends.bind_error {e : Error} (h : Ends x s (.error e) post) :
    Ends (x >>= f) s (.error e) post := by
  obtain ⟨t, hrun, hpost⟩ := h.run_eq
  unfold Ends
  rw [run_bind, hrun]
  exact ⟨rfl, hpost⟩

-- Something is made of the result, or nothing.
theorem Ends.map (h : Ends x s r post) (f : α → β) :
    Ends (x >>= fun a => pure (f a)) s (r.map f) post := by
  cases r with
  | error e => exact h.bind_error
  | ok a => exact h.bind fun t ht => ends_pure ht

theorem Ends.discard (h : Ends x s r post) : Ends (discard x) s (r.map fun _ => ⟨⟩) post :=
  h.map fun _ => PUnit.unit

theorem snd_run_discard (x : Step σ α) (s : σ) : ((discard x : Step σ PUnit).run s).2 = (x.run s).2 := by
  have hends : Ends x s (x.run s).1 (· = (x.run s).2) := ⟨rfl, rfl⟩
  exact hends.discard.2

-- A step that looks at the state first.
theorem ends_get_bind {f : σ → Step σ β} {r : Except Error β} (h : Ends (f s) s r post) :
    Ends (get >>= f) s r post := by
  unfold Ends at h ⊢
  rw [run_bind]
  exact h

theorem Ends.attempt (h : Ends x s r post) : Ends x.attempt s (.ok r) post :=
  ⟨congrArg Except.ok h.1, h.2⟩

theorem Ends.inside {p : Part τ σ} {t : τ} {post : τ → Prop}
    (h : Ends x (p.get t) r fun s => post (p.set s t)) : Ends (inside p x) t r post :=
  h

-- What is kept beside the host does not matter to a step of the host alone.
theorem Ends.onHost {x : Step Host α} {host : Host} {post : Host → Prop} (u : τ)
    (h : Ends x host r post) :
    Ends (Step.inside Part.host x) (host, u) r fun t => post t.1 ∧ t.2 = u :=
  ⟨h.1, h.2, rfl⟩

-- What a step beside a state of its own does to that state is part of its result.
theorem Ends.beside {x : Step (σ × τ) α} {t : τ} {whole : σ × τ → Prop}
    (h : Ends x (s, t) (.ok a) whole) :
    ∃ t', Ends (beside t x) s (.ok (a, t')) fun s' => whole (s', t') := by
  obtain ⟨⟨s', t'⟩, hrun, hpost⟩ := h.run_eq
  refine ⟨t', ?_⟩
  unfold Ends Step.beside
  rw [run_ofRun, hrun]
  exact ⟨rfl, hpost⟩

-- If the step fails, that state is lost.
theorem Ends.beside_error {x : Step (σ × τ) α} {t : τ} {e : Error} {whole : σ × τ → Prop}
    (h : Ends x (s, t) (.error e) whole) :
    Ends (Step.beside t x) s (.error e) fun s' => ∃ t', whole (s', t') := by
  obtain ⟨⟨s', t'⟩, hrun, hpost⟩ := h.run_eq
  unfold Ends Step.beside
  rw [run_ofRun, hrun]
  exact ⟨rfl, t', hpost⟩

-- If that state is not asked for, the result is that of the step.
theorem run_beside_fst (x : Step (σ × τ) α) (t : τ) (s : σ) :
    ((beside t x >>= fun out => pure out.1).run s).1 = (x.run (s, t)).1 := by
  rw [run_bind, beside, run_ofRun]
  rcases x.run (s, t) with ⟨r, s', t'⟩
  cases r <;> rfl

theorem ends_onDisk_error {p : Path} {f : Disk → Except Refusal α × Disk} {host : Host}
    {post : Host → Prop} {d : Disk} {e : Refusal} (hf : f host.disk = (.error e, d))
    (h : post { host with disk := d }) : Ends (onDisk p f) host (.error (.io p e.reason) : Except Error α) post := by
  unfold Ends onDisk
  rw [run_ofRun, hf]
  exact ⟨rfl, h⟩

theorem ends_onDisk {p : Path} {f : Disk → Except Refusal α × Disk} {host : Host}
    {post : Host → Prop} {d : Disk} (hf : f host.disk = (.ok a, d))
    (h : post { host with disk := d }) : Ends (onDisk p f) host (.ok a) post := by
  unfold Ends onDisk
  rw [run_ofRun, hf]
  exact ⟨rfl, h⟩

end

end Spool.Step
