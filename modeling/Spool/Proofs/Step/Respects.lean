import Spool.Proofs.Step.Ends

namespace Spool.Step

-- The same result of two steps, and related states after them.
def Agree (R : σ → σ → Prop) (x y : Step σ α) (s t : σ) : Prop :=
  (x.run s).1 = (y.run t).1 ∧ R (x.run s).2 (y.run t).2

def Respects (R : σ → σ → Prop) (x : Step σ α) : Prop :=
  ∀ s t, R s t → Agree R x x s t

section

variable {R : σ → σ → Prop} {x y : Step σ α} {f : α → Step σ β} {s t : σ}

theorem Agree.bind {g : α → Step σ β} (h : Agree R x y s t)
    (hrest : ∀ a u v, R u v → Agree R (f a) (g a) u v) : Agree R (x >>= f) (y >>= g) s t := by
  obtain ⟨hresult, hstates⟩ := h
  unfold Agree
  rw [run_bind, run_bind]
  generalize x.run s = out, y.run t = out' at hresult hstates
  obtain ⟨r, u⟩ := out
  obtain ⟨r', v⟩ := out'
  obtain rfl : r = r' := hresult
  cases r with
  | error e => exact ⟨rfl, hstates⟩
  | ok a => exact hrest a u v hstates

-- Two steps that look at the state first.
theorem agree_get_bind {f g : σ → Step σ β} (h : Agree R (f s) (g t) s t) :
    Agree R (get >>= f) (get >>= g) s t := by
  unfold Agree at h ⊢
  rw [run_bind, run_bind]
  exact h

theorem respects_pure (a : α) : Respects R (pure a) :=
  fun _ _ h => ⟨rfl, h⟩

theorem respects_throw_bind (e : Error) (f : α → Step σ β) :
    Respects R ((throw e : Step σ α) >>= f) :=
  fun _ _ h => ⟨rfl, h⟩

theorem respects_ofExcept (r : Except Error α) : Respects R (ofExcept r) :=
  fun _ _ h => ⟨rfl, h⟩

theorem respects_modify {g : σ → σ} (h : ∀ s t, R s t → R (g s) (g t)) : Respects R (modify g) :=
  fun s t hst => ⟨rfl, h s t hst⟩

theorem Respects.bind (h : Respects R x) (hrest : ∀ a, Respects R (f a)) : Respects R (x >>= f) :=
  fun s t hst => (h s t hst).bind fun a u v huv => hrest a u v huv

theorem Respects.map (h : Respects R x) (f : α → β) : Respects R (x >>= fun a => pure (f a)) :=
  h.bind fun a => respects_pure (f a)

-- What a step makes of the state that it looks at is the same for related states.
theorem respects_get_bind {f : σ → Step σ β} (hsame : ∀ s t, R s t → f s = f t)
    (h : ∀ s, Respects R (f s)) : Respects R (get >>= f) := by
  intro s t hst
  refine agree_get_bind ?_
  rw [← hsame s t hst]
  exact h s s t hst

-- What is kept beside two states goes its own ways, as long as the two stay related with it.
theorem Agree.beside {Q : τ → τ → Prop} {R : τ × σ → τ × σ → Prop} {x y : Step (τ × σ) α}
    {f g : α × σ → Step τ β} {s t : τ} {u v : σ} (h : Agree R x y (s, u) (t, v))
    (hrelated : ∀ s t, R s t → Q s.1 t.1)
    (hrest : ∀ a s t, R s t → Agree Q (f (a, s.2)) (g (a, t.2)) s.1 t.1) :
    Agree Q (beside u x >>= f) (beside v y >>= g) s t := by
  obtain ⟨hresult, hstates⟩ := h
  unfold Agree
  rw [run_bind, run_bind, Step.beside, Step.beside, run_ofRun, run_ofRun]
  generalize x.run (s, u) = out, y.run (t, v) = out' at hresult hstates
  obtain ⟨r, s', u'⟩ := out
  obtain ⟨r', t', v'⟩ := out'
  obtain rfl : r = r' := hresult
  cases r with
  | error e => exact ⟨rfl, hrelated _ _ hstates⟩
  | ok a => exact hrest a _ _ hstates

end

end Spool.Step
