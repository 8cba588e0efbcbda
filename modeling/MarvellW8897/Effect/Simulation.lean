import MarvellW8897.Effect.Path

/-!
# Simulations

A system with the labels `ℓ` refines another one with the labels `ℓ'` if its steps can be followed
there. `observe` says which label a step shows; a step that shows none is not to be seen.

* `Simulation.path` — whole paths can be followed.
-/

namespace Effect

variable {σ σ' ℓ ℓ' : Type} {step : σ → ℓ → σ → Prop} {step' : σ' → ℓ' → σ' → Prop}
  {observe : ℓ → Option ℓ'} {R : σ → σ' → Prop} {a b : σ} {a' : σ'} {ls : List ℓ}

/-- From related states, a step that shows a label is followed by one step, any other by none. -/
structure Simulation (step : σ → ℓ → σ → Prop) (step' : σ' → ℓ' → σ' → Prop)
    (observe : ℓ → Option ℓ') (R : σ → σ' → Prop) : Prop where
  silent : ∀ {a a' l b}, R a a' → step a l b → observe l = none → R b a'
  shown : ∀ {a a' l b l'}, R a a' → step a l b → observe l = some l' →
    ∃ b', step' a' l' b' ∧ R b b'

namespace Simulation

theorem path (S : Simulation step step' observe R) (hR : R a a') (h : Path step a ls b) :
    ∃ b', Path step' a' (ls.filterMap observe) b' ∧ R b b' := by
  induction h with
  | nil => exact ⟨a', Path.nil, hR⟩
  | @snoc ls c b l _ hs ih =>
    obtain ⟨c', hpath, hc⟩ := ih
    rw [List.filterMap_append]
    cases ho : observe l with
    | none =>
      refine ⟨c', ?_, S.silent hc hs ho⟩
      simpa [ho] using hpath
    | some l' =>
      obtain ⟨b', hs', hb⟩ := S.shown hc hs ho
      refine ⟨b', ?_, hb⟩
      simpa [ho] using Path.snoc hpath hs'

end Simulation

end Effect
