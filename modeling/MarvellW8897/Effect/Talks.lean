import Mathlib.Data.List.Forall2
import MarvellW8897.Effect.Emits

/-!
# The language of a program

Of all the runs of a program, what `f` shows of them: each answer that matters can be any answer.

* `Talks` — what some run shows, and returns.
* `talks_pure`, `talks_ask_silent`, `talks_bind` — equations along the text of the program.
* `Says` — the same without what is returned; `says_foldlM` is the equation of a loop.
* `FirstSuccess` — attempts in a given order, up to the first one that succeeds.
* `Tries` — a program that makes such attempts; `Tries.orElse` joins two plans.
-/

namespace Effect

variable {Op α β γ : Type} {Resp : Op → Type}

/-- A run of `p` that shows `xs` and returns `a`. -/
def Talks (f : Event Op Resp → Option γ) (p : Program Op Resp α) (xs : List γ) (a : α) : Prop :=
  ∃ t, Runs p t a ∧ shown f t = xs

variable {f : Event Op Resp → Option γ} {p : Program Op Resp α} {xs : List γ}

theorem talks_pure {a b : α} :
    Talks f (Pure.pure a : Program Op Resp α) xs b ↔ xs = [] ∧ b = a := by
  constructor
  · rintro ⟨t, hr, rfl⟩
    obtain ⟨rfl, rfl⟩ := runs_pure.mp hr
    exact ⟨rfl, rfl⟩
  · rintro ⟨rfl, rfl⟩
    exact ⟨[], runs_pure.mpr ⟨rfl, rfl⟩, rfl⟩

theorem talks_bind {g : α → Program Op Resp β} {b : β} :
    Talks f (p >>= g) xs b ↔
      ∃ ys a zs, xs = ys ++ zs ∧ Talks f p ys a ∧ Talks f (g a) zs b := by
  constructor
  · rintro ⟨t, hr, rfl⟩
    obtain ⟨t₁, a, t₂, rfl, h₁, h₂⟩ := runs_bind.mp hr
    exact ⟨_, a, _, List.filterMap_append, ⟨t₁, h₁, rfl⟩, ⟨t₂, h₂, rfl⟩⟩
  · rintro ⟨ys, a, zs, rfl, ⟨t₁, h₁, rfl⟩, ⟨t₂, h₂, rfl⟩⟩
    exact ⟨t₁ ++ t₂, h₁.bind h₂, List.filterMap_append⟩

theorem talks_ask {op : Op} {r : Resp op} :
    Talks f (Program.ask op : Program Op Resp (Resp op)) xs r ↔ xs = (f ⟨op, r⟩).toList := by
  have hshown : shown f [⟨op, r⟩] = (f ⟨op, r⟩).toList := by
    unfold shown
    cases hf : f ⟨op, r⟩ with
    | none => simp [hf]
    | some x => simp [hf]
  constructor
  · rintro ⟨t, hr, rfl⟩
    rw [runs_ask.mp hr, hshown]
  · rintro rfl
    exact ⟨_, runs_ask.mpr rfl, hshown⟩

/-- A request that shows nothing, before the rest of a program. -/
theorem talks_ask_silent {op : Op} {g : Resp op → Program Op Resp β} {b : β}
    (h : ∀ r, f ⟨op, r⟩ = none) :
    Talks f (Program.ask op >>= g) xs b ↔ ∃ r, Talks f (g r) xs b := by
  rw [talks_bind]
  constructor
  · rintro ⟨ys, r, zs, rfl, hr, hg⟩
    rw [talks_ask, h r] at hr
    obtain rfl : ys = [] := hr
    exact ⟨r, hg⟩
  · rintro ⟨r, hg⟩
    exact ⟨[], r, xs, rfl, talks_ask.mpr (by rw [h r]; rfl), hg⟩

/-! ## Whatever is returned -/

/-- A run of `p` that shows `xs`. -/
def Says (f : Event Op Resp → Option γ) (p : Program Op Resp α) (xs : List γ) : Prop :=
  ∃ a, Talks f p xs a

/-- The rest of a program that says the same whatever it is given. -/
theorem says_bind {g : α → Program Op Resp β} {T : List γ → Prop}
    (hg : ∀ a zs, Says f (g a) zs ↔ T zs) :
    Says f (p >>= g) xs ↔ ∃ ys zs, xs = ys ++ zs ∧ Says f p ys ∧ T zs := by
  constructor
  · rintro ⟨b, h⟩
    obtain ⟨ys, a, zs, rfl, hp, hrest⟩ := talks_bind.mp h
    exact ⟨ys, zs, rfl, ⟨a, hp⟩, (hg a zs).mp ⟨b, hrest⟩⟩
  · rintro ⟨ys, zs, rfl, ⟨a, hp⟩, hT⟩
    obtain ⟨b, hrest⟩ := (hg a zs).mpr hT
    exact ⟨b, talks_bind.mpr ⟨ys, a, zs, rfl, hp, hrest⟩⟩

/-- A loop whose turns say the same whatever the state is. -/
theorem says_foldlM {σ ι : Type} {g : σ → ι → Program Op Resp σ} {T : ι → List γ → Prop}
    (hg : ∀ s x zs, Says f (g s x) zs ↔ T x zs) {l : List ι} {s : σ} :
    Says f (l.foldlM g s) xs ↔ ∃ parts, xs = parts.flatten ∧ List.Forall₂ T l parts := by
  induction l generalizing s xs with
  | nil =>
    constructor
    · rintro ⟨a, h⟩
      exact ⟨[], (talks_pure.mp h).1, List.Forall₂.nil⟩
    · rintro ⟨parts, rfl, hparts⟩
      cases hparts
      exact ⟨s, talks_pure.mpr ⟨rfl, rfl⟩⟩
  | cons x l ih =>
    rw [List.foldlM_cons, says_bind fun _ _ => ih]
    constructor
    · rintro ⟨ys, zs, rfl, hx, parts, rfl, hparts⟩
      exact ⟨ys :: parts, rfl, List.Forall₂.cons ((hg s x ys).mp hx) hparts⟩
    · rintro ⟨parts, rfl, hparts⟩
      cases hparts with
      | cons hx hparts => exact ⟨_, _, rfl, (hg s x _).mpr hx, _, rfl, hparts⟩

/-! ## Attempts -/

/--
`xs` are the attempts of `plan`, in order, up to the first one that is a success; `ok` says whether
there is one. If there is none, `xs` runs through the whole of `plan`.
-/
inductive FirstSuccess {κ ε : Type} (key : ε → κ) (success : ε → Prop) :
    List κ → List ε → Bool → Prop where
  | exhausted : FirstSuccess key success [] [] false
  | success {plan : List κ} {x : ε} (h : success x) :
      FirstSuccess key success (key x :: plan) [x] true
  | failure {plan : List κ} {x : ε} {xs : List ε} {ok : Bool} (h : ¬ success x)
      (rest : FirstSuccess key success plan xs ok) :
      FirstSuccess key success (key x :: plan) (x :: xs) ok

section Attempts

variable {κ ε : Type} {key : ε → κ} {success : ε → Prop} {k : κ} {plan : List κ} {xs : List ε}
  {ok : Bool}

theorem firstSuccess_nil : FirstSuccess key success [] xs ok ↔ xs = [] ∧ ok = false := by
  constructor
  · intro h
    cases h
    exact ⟨rfl, rfl⟩
  · rintro ⟨rfl, rfl⟩
    exact FirstSuccess.exhausted

theorem firstSuccess_cons : FirstSuccess key success (k :: plan) xs ok ↔
    ∃ x, key x = k ∧ ((success x ∧ xs = [x] ∧ ok = true) ∨
      (¬ success x ∧ ∃ rest, xs = x :: rest ∧ FirstSuccess key success plan rest ok)) := by
  constructor
  · intro h
    cases h with
    | success h => exact ⟨_, rfl, Or.inl ⟨h, rfl, rfl⟩⟩
    | failure h rest => exact ⟨_, rfl, Or.inr ⟨h, _, rfl, rest⟩⟩
  · rintro ⟨x, rfl, ⟨h, rfl, rfl⟩ | ⟨h, rest, rfl, hrest⟩⟩
    · exact FirstSuccess.success h
    · exact FirstSuccess.failure h hrest

/-- Two plans in a row: the second one is for when the first one has failed. -/
theorem firstSuccess_append {plan' : List κ} :
    FirstSuccess key success (plan ++ plan') xs ok ↔
      (FirstSuccess key success plan xs true ∧ ok = true) ∨
        ∃ ys zs, xs = ys ++ zs ∧ FirstSuccess key success plan ys false ∧
          FirstSuccess key success plan' zs ok := by
  induction plan generalizing xs with
  | nil =>
    simp only [List.nil_append, firstSuccess_nil]
    constructor
    · intro h
      exact Or.inr ⟨[], xs, rfl, ⟨rfl, trivial⟩, h⟩
    · rintro (⟨⟨-, hf⟩, -⟩ | ⟨ys, zs, rfl, ⟨rfl, -⟩, h⟩)
      · simp at hf
      · exact h
  | cons k plan ih =>
    simp only [List.cons_append, firstSuccess_cons, ih]
    constructor
    · rintro ⟨x, hx, ⟨h, rfl, rfl⟩ | ⟨h, rest, rfl, ⟨hrest, rfl⟩ | ⟨ys, zs, rfl, hys, hzs⟩⟩⟩
      · exact Or.inl ⟨⟨x, hx, Or.inl ⟨h, rfl, trivial⟩⟩, rfl⟩
      · exact Or.inl ⟨⟨x, hx, Or.inr ⟨h, rest, rfl, hrest⟩⟩, rfl⟩
      · exact Or.inr ⟨x :: ys, zs, rfl, ⟨x, hx, Or.inr ⟨h, ys, rfl, hys⟩⟩, hzs⟩
    · rintro (⟨⟨x, hx, ⟨h, rfl, -⟩ | ⟨h, rest, rfl, hrest⟩⟩, rfl⟩ |
        ⟨ys, zs, rfl, ⟨x, hx, ⟨-, -, hf⟩ | ⟨h, rest, rfl, hrest⟩⟩, hzs⟩)
      · exact ⟨x, hx, Or.inl ⟨h, rfl, rfl⟩⟩
      · exact ⟨x, hx, Or.inr ⟨h, rest, rfl, Or.inl ⟨hrest, rfl⟩⟩⟩
      · simp at hf
      · exact ⟨x, hx, Or.inr ⟨h, rest ++ zs, rfl, Or.inr ⟨rest, zs, rfl, hrest, hzs⟩⟩⟩

/-- No attempt is made twice, and none out of turn. -/
theorem FirstSuccess.keys (h : FirstSuccess key success plan xs ok) : xs.map key <+: plan := by
  induction h with
  | exhausted => exact List.prefix_rfl
  | success _ => exact List.cons_prefix_cons.mpr ⟨rfl, List.nil_prefix⟩
  | failure _ _ ih => exact List.cons_prefix_cons.mpr ⟨rfl, ih⟩

end Attempts

/-- `p` makes the attempts of `plan`, and returns whether one succeeded, with a further value. -/
def Tries {κ : Type} (f : Event Op Resp → Option γ) (key : γ → κ) (success : γ → Prop)
    (plan : List κ) (p : Program Op Resp (Bool × α)) : Prop :=
  ∀ xs ok, (∃ a, Talks f p xs (ok, a)) ↔ FirstSuccess key success plan xs ok

section Tries

variable {κ : Type} {key : γ → κ} {success : γ → Prop} {plan plan' : List κ}
  {p : Program Op Resp (Bool × α)}

theorem tries_pure (a : α) :
    Tries f key success [] (Pure.pure (false, a) : Program Op Resp (Bool × α)) := by
  intro xs ok
  rw [firstSuccess_nil]
  constructor
  · rintro ⟨b, h⟩
    obtain ⟨rfl, he⟩ := talks_pure.mp h
    exact ⟨rfl, (Prod.mk.inj he).1⟩
  · rintro ⟨rfl, rfl⟩
    exact ⟨a, talks_pure.mpr ⟨rfl, rfl⟩⟩

/-- A program that goes on to another plan exactly when the first one has failed. -/
theorem Tries.orElse {g : Bool × α → Program Op Resp (Bool × β)}
    (hp : Tries f key success plan p) (htrue : ∀ a, ∃ b, g (true, a) = Pure.pure (true, b))
    (hfalse : ∀ a, Tries f key success plan' (g (false, a))) :
    Tries f key success (plan ++ plan') (p >>= g) := by
  intro xs ok
  rw [firstSuccess_append]
  constructor
  · rintro ⟨b, h⟩
    obtain ⟨ys, ⟨first, a⟩, zs, rfl, hfirst, hrest⟩ := talks_bind.mp h
    cases first with
    | true =>
      obtain ⟨b', hb'⟩ := htrue a
      rw [hb'] at hrest
      obtain ⟨rfl, he⟩ := talks_pure.mp hrest
      rw [List.append_nil]
      exact Or.inl ⟨(hp ys true).mp ⟨a, hfirst⟩, (Prod.mk.inj he).1⟩
    | false =>
      exact Or.inr ⟨ys, zs, rfl, (hp ys false).mp ⟨a, hfirst⟩, (hfalse a zs ok).mp ⟨b, hrest⟩⟩
  · rintro (⟨h, rfl⟩ | ⟨ys, zs, rfl, hys, hzs⟩)
    · obtain ⟨a, ha⟩ := (hp xs true).mpr h
      obtain ⟨b, hb⟩ := htrue a
      refine ⟨b, talks_bind.mpr ⟨xs, (true, a), [], (List.append_nil xs).symm, ha, ?_⟩⟩
      rw [hb]
      exact talks_pure.mpr ⟨rfl, rfl⟩
    · obtain ⟨a, ha⟩ := (hp ys false).mpr hys
      obtain ⟨b, hb⟩ := (hfalse a zs ok).mpr hzs
      exact ⟨b, talks_bind.mpr ⟨ys, (false, a), zs, rfl, ha, hb⟩⟩

/-- What comes along with the flag does not matter. -/
theorem Tries.map {g : Bool × α → Bool × β} (hp : Tries f key success plan p)
    (hg : ∀ r, (g r).1 = r.1) :
    Tries f key success plan (p >>= fun r => Pure.pure (g r)) := by
  intro xs ok
  rw [← hp xs ok]
  constructor
  · rintro ⟨b, h⟩
    obtain ⟨ys, ⟨first, a⟩, zs, rfl, hfirst, hrest⟩ := talks_bind.mp h
    obtain ⟨rfl, he⟩ := talks_pure.mp hrest
    obtain rfl : ok = first := (congrArg Prod.fst he).trans (hg (first, a))
    rw [List.append_nil]
    exact ⟨a, hfirst⟩
  · rintro ⟨a, h⟩
    refine ⟨(g (ok, a)).2, talks_bind.mpr ⟨xs, (ok, a), [], (List.append_nil xs).symm, h, ?_⟩⟩
    exact talks_pure.mpr ⟨rfl, Prod.ext (hg (ok, a)).symm rfl⟩

end Tries

end Effect
