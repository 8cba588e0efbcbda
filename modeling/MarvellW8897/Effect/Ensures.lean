import MarvellW8897.Effect.Path
import MarvellW8897.Effect.Program

/-!
# Conditions at every moment of a run

The requests of a program change a state: `step s e s'` says that the event `e` can lead from `s` to
`s'`. A run may be cut off at any moment, so besides a postcondition there is a condition on every
state on the way.

* `Ensures` — every state on the way satisfies `I`, and the last one the postcondition `Q`.
* `ensures_pure`, `ensures_ask_bind`, `Ensures.bind` — the rules along the text of the program.
* `Ensures.mono` — the rule of consequence.
-/

namespace Effect

variable {Op σ α β : Type} {Resp : Op → Type}

/-- Every run of `p` from `s` stays in `I`, and returns with `Q`. -/
structure Ensures (step : σ → Event Op Resp → σ → Prop) (I : σ → Prop) (p : Program Op Resp α)
    (Q : α → σ → Prop) (s : σ) : Prop where
  always : ∀ t a u s', Runs p t a → u <+: t → Path step s u s' → I s'
  post : ∀ t a s', Runs p t a → Path step s t s' → Q a s'

variable {step : σ → Event Op Resp → σ → Prop} {I I' : σ → Prop} {p : Program Op Resp α}
  {Q Q' : α → σ → Prop} {s : σ}

theorem Ensures.mono (h : Ensures step I p Q s) (hI : ∀ s', I s' → I' s')
    (hQ : ∀ a s', Q a s' → Q' a s') : Ensures step I' p Q' s where
  always := fun t a u s' hr hu hp => hI s' (h.always t a u s' hr hu hp)
  post := fun t a s' hr hp => hQ a s' (h.post t a s' hr hp)

/-- The last state is one of the states on the way. -/
theorem Ensures.last (h : Ensures step I p Q s) :
    Ensures step I p (fun a s' => I s' ∧ Q a s') s where
  always := h.always
  post := fun t a s' hr hp => ⟨h.always t a t s' hr List.prefix_rfl hp, h.post t a s' hr hp⟩

theorem ensures_pure {a : α} (hI : I s) (hQ : Q a s) :
    Ensures step I (Pure.pure a : Program Op Resp α) Q s where
  always := by
    intro t b u s' hr hu hp
    obtain ⟨rfl, rfl⟩ := runs_pure.mp hr
    rw [List.prefix_nil.mp hu] at hp
    rwa [hp.eq_of_nil]
  post := by
    intro t b s' hr hp
    obtain ⟨rfl, rfl⟩ := runs_pure.mp hr
    rwa [hp.eq_of_nil]

/-- The rule for one request: any answer, and any state to which it can lead. -/
theorem ensures_ask_bind {op : Op} {f : Resp op → Program Op Resp α} (hI : I s)
    (h : ∀ r s', step s ⟨op, r⟩ s' → Ensures step I (f r) Q s') :
    Ensures step I (Program.ask op >>= f) Q s where
  always := by
    intro t a u s' hr hu hp
    obtain ⟨r, t', rfl, hr'⟩ := runs_ask_bind.mp hr
    cases u with
    | nil => rwa [hp.eq_of_nil]
    | cons e u =>
      obtain ⟨rfl, hu'⟩ := List.cons_prefix_cons.mp hu
      obtain ⟨s₁, hs, hp'⟩ := hp.of_cons
      exact (h r s₁ hs).always t' a u s' hr' hu' hp'
  post := by
    intro t a s' hr hp
    obtain ⟨r, t', rfl, hr'⟩ := runs_ask_bind.mp hr
    obtain ⟨s₁, hs, hp'⟩ := hp.of_cons
    exact (h r s₁ hs).post t' a s' hr' hp'

theorem Ensures.bind {f : α → Program Op Resp β} {R : β → σ → Prop} (hp : Ensures step I p Q s)
    (hf : ∀ a s', Q a s' → Ensures step I (f a) R s') : Ensures step I (p >>= f) R s where
  always := by
    intro t b u s' hr hu hpath
    obtain ⟨t₁, a, t₂, rfl, hr₁, hr₂⟩ := runs_bind.mp hr
    rcases List.prefix_or_prefix_of_prefix hu (List.prefix_append t₁ t₂) with hu₁ | ⟨v, rfl⟩
    · exact hp.always t₁ a u s' hr₁ hu₁ hpath
    · obtain ⟨s₁, hpath₁, hpath₂⟩ := hpath.split
      have hv : v <+: t₂ := (List.prefix_append_right_inj t₁).mp hu
      exact (hf a s₁ (hp.post t₁ a s₁ hr₁ hpath₁)).always t₂ b v s' hr₂ hv hpath₂
  post := by
    intro t b s' hr hpath
    obtain ⟨t₁, a, t₂, rfl, hr₁, hr₂⟩ := runs_bind.mp hr
    obtain ⟨s₁, hpath₁, hpath₂⟩ := hpath.split
    exact (hf a s₁ (hp.post t₁ a s₁ hr₁ hpath₁)).post t₂ b s' hr₂ hpath₂

end Effect
