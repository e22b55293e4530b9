import Spool.Proofs.Step.Ends

namespace Spool.Step

-- A step keeps what is true of the state whether it goes well or fails.
def Keeps (P : σ → Prop) (x : Step σ α) : Prop :=
  ∀ s, P s → P (x.run s).2

section

variable {P : σ → Prop} {x : Step σ α} {f : α → Step σ β}

theorem keeps_pure (a : α) : Keeps P (pure a) :=
  fun _ h => h

theorem keeps_ofExcept (r : Except Error α) : Keeps P (ofExcept r) :=
  fun _ h => h

theorem keeps_modify {g : σ → σ} (h : ∀ s, P s → P (g s)) : Keeps P (modify g) :=
  h

theorem Keeps.bind (hx : Keeps P x) (hf : ∀ a, Keeps P (f a)) : Keeps P (x >>= f) := by
  intro s h
  have hfirst := hx s h
  rw [run_bind]
  generalize x.run s = out at hfirst ⊢
  rcases out with ⟨_ | a, t⟩
  · exact hfirst
  · exact hf a t hfirst

theorem Keeps.discard (hx : Keeps P x) : Keeps P (discard x : Step σ PUnit) :=
  hx.bind fun _ => keeps_pure _

-- What is done may depend on the state as it is at first.
theorem keeps_get_bind {f : σ → Step σ β} (h : ∀ s, P s → P ((f s).run s).2) :
    Keeps P (get >>= f) := by
  intro s hs
  rw [run_bind_of_run (run_get s)]
  exact h s hs

-- What is kept beside the state does not have to be kept up.
theorem keeps_beside {x : Step (σ × τ) α} (t : τ) (h : ∀ s, P s → P (x.run (s, t)).2.1) :
    Keeps P (beside t x) := by
  intro s hs
  have hfirst := h s hs
  rw [Step.beside, run_ofRun]
  generalize x.run (s, t) = out at hfirst ⊢
  rcases out with ⟨_ | a, s', t'⟩ <;> exact hfirst

theorem keeps_forM {g : ι → Step σ PUnit} (h : ∀ i, Keeps P (g i)) (is : List ι) : Keeps P (is.forM g) := by
  induction is with
  | nil => exact keeps_pure _
  | cons i is ih =>
      have hcons : (i :: is).forM g = g i >>= fun _ => is.forM g := rfl
      rw [hcons]
      exact (h i).bind fun _ => ih

end

end Spool.Step
