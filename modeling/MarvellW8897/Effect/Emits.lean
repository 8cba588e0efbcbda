import MarvellW8897.Effect.Program

/-!
# What a program shows

`f` picks out what an event shows, such as a line of output. Of the environment it is assumed that
every event satisfies `A`.

* `Emits` — what every such run shows, and what it returns.
* `emits_pure`, `emits_ask`, `Emits.bind` — the rules along the text of the program.
* `emits_forM`, `emits_foldlM` — the rules for loops whose turns show and return fixed values.
-/

namespace Effect

variable {Op α β γ σ ι : Type} {Resp : Op → Type}

/-- What `t` shows. -/
def shown (f : Event Op Resp → Option γ) (t : List (Event Op Resp)) : List γ := t.filterMap f

/-- Every run of `p` with events in `A` returns, and shows, what `Q` says. -/
def Emits (A : Event Op Resp → Prop) (f : Event Op Resp → Option γ) (p : Program Op Resp α)
    (Q : List γ → α → Prop) : Prop :=
  ∀ t a, Runs p t a → (∀ e ∈ t, A e) → Q (shown f t) a

variable {A : Event Op Resp → Prop} {f : Event Op Resp → Option γ} {p : Program Op Resp α}
  {Q Q' : List γ → α → Prop}

theorem Emits.mono (h : Emits A f p Q) (hQ : ∀ xs a, Q xs a → Q' xs a) : Emits A f p Q' :=
  fun t a hr ht => hQ _ a (h t a hr ht)

theorem emits_pure {a : α} (h : Q [] a) : Emits A f (Pure.pure a : Program Op Resp α) Q := by
  intro t b hr _
  obtain ⟨rfl, rfl⟩ := runs_pure.mp hr
  exact h

theorem emits_ask {op : Op} {Q : List γ → Resp op → Prop}
    (h : ∀ r, A ⟨op, r⟩ → Q (f ⟨op, r⟩).toList r) :
    Emits A f (Program.ask op : Program Op Resp (Resp op)) Q := by
  intro t r hr ht
  obtain rfl := runs_ask.mp hr
  have hshown : shown f [⟨op, r⟩] = (f ⟨op, r⟩).toList := by
    unfold shown
    cases hf : f ⟨op, r⟩ with
    | none => simp [hf]
    | some x => simp [hf]
  rw [hshown]
  exact h r (ht _ (List.mem_singleton_self _))

theorem Emits.bind {g : α → Program Op Resp β} {R : List γ → β → Prop} (hp : Emits A f p Q)
    (hg : ∀ xs a, Q xs a → Emits A f (g a) fun ys b => R (xs ++ ys) b) :
    Emits A f (p >>= g) R := by
  intro t b hr ht
  obtain ⟨t₁, a, t₂, rfl, h₁, h₂⟩ := runs_bind.mp hr
  have hfirst := hp t₁ a h₁ (fun e he => ht e (List.mem_append_left _ he))
  have hrest := hg _ a hfirst t₂ b h₂ (fun e he => ht e (List.mem_append_right _ he))
  rw [shown, List.filterMap_append]
  exact hrest

/-- The rule for a loop whose turns show fixed values. -/
theorem emits_forM {g : ι → Program Op Resp Unit} {h : ι → List γ} {l : List ι}
    (hg : ∀ x ∈ l, Emits A f (g x) fun xs _ => xs = h x) :
    Emits A f (l.forM g) fun xs _ => xs = l.flatMap h := by
  induction l with
  | nil => exact emits_pure rfl
  | cons x l ih =>
    change Emits A f (g x >>= fun _ => l.forM g) _
    refine (hg x List.mem_cons_self).bind ?_
    rintro xs - rfl
    refine (ih fun y hy => hg y (List.mem_cons_of_mem x hy)).mono ?_
    rintro ys - rfl
    rw [List.flatMap_cons]

/-- The rule for a loop with a state whose turns show and return fixed values. -/
theorem emits_foldlM {g : σ → ι → Program Op Resp σ} {next : σ → ι → σ} {h : ι → List γ}
    {l : List ι} {s : σ}
    (hg : ∀ s, ∀ x ∈ l, Emits A f (g s x) fun xs s' => xs = h x ∧ s' = next s x) :
    Emits A f (l.foldlM g s) fun xs s' => xs = l.flatMap h ∧ s' = l.foldl next s := by
  induction l generalizing s with
  | nil => exact emits_pure ⟨rfl, rfl⟩
  | cons x l ih =>
    rw [List.foldlM_cons]
    refine (hg s x List.mem_cons_self).bind ?_
    rintro xs s' ⟨rfl, rfl⟩
    refine (ih fun s y hy => hg s y (List.mem_cons_of_mem x hy)).mono ?_
    rintro ys s' ⟨rfl, rfl⟩
    rw [List.flatMap_cons]
    exact ⟨rfl, rfl⟩

end Effect
