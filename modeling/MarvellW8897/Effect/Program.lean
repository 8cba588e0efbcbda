import Mathlib.Data.List.Basic

/-!
# Programs against an environment

A program asks requests of an environment it does not control and goes on with the answers.
`Program Op Resp α` is the tree of its requests; `Runs p t a` says that `p` can meet the answers
recorded in `t` and then return `a`. No assumption is made on the answers, so a statement about
every `Runs` covers every environment.

* `runs_bind`, `runs_request`, `runs_pure` take a run apart along the text of the program.
* `Runs.prefix_unique` — the answers determine the run.
* `Program.exec_eq` — the run against a given environment.
* `Runs.foldlM` — the invariant rule for a loop over a list.
* `Leaves` — what holds of the trace of every run; `Uses` — the requests a program can make at all.
-/

namespace Effect

/-- A request together with the answer it received. -/
structure Event (Op : Type) (Resp : Op → Type) where
  op : Op
  resp : Resp op

/-- A program: it returns, or it asks a request and continues with the answer. -/
inductive Program (Op : Type) (Resp : Op → Type) (α : Type) where
  | pure (a : α)
  | request (op : Op) (k : Resp op → Program Op Resp α)

variable {Op : Type} {Resp : Op → Type} {α β σ ι : Type}

namespace Program

def bind : Program Op Resp α → (α → Program Op Resp β) → Program Op Resp β
  | .pure a, f => f a
  | .request op k, f => .request op (fun r => (k r).bind f)

instance : Monad (Program Op Resp) where
  pure := .pure
  bind := bind

/-- Ask one request and return its answer. -/
def ask (op : Op) : Program Op Resp (Resp op) := .request op .pure

theorem bind_assoc (p : Program Op Resp α) (f : α → Program Op Resp β)
    (g : β → Program Op Resp σ) : p >>= f >>= g = p >>= fun a => f a >>= g := by
  induction p with
  | pure a => rfl
  | request op k ih => exact congrArg (request op) (funext ih)

end Program

/-! ## Runs -/

/-- `Runs p t a`: answered as in `t`, the program `p` returns `a`. -/
inductive Runs : Program Op Resp α → List (Event Op Resp) → α → Prop where
  | pure (a : α) : Runs (.pure a) [] a
  | request {op : Op} {k : Resp op → Program Op Resp α} {t : List (Event Op Resp)} {a : α}
      (r : Resp op) (h : Runs (k r) t a) : Runs (.request op k) (⟨op, r⟩ :: t) a

theorem runs_pure {a b : α} {t : List (Event Op Resp)} :
    Runs (Pure.pure a : Program Op Resp α) t b ↔ t = [] ∧ b = a := by
  constructor
  · intro h
    cases h
    exact ⟨rfl, rfl⟩
  · rintro ⟨rfl, rfl⟩
    exact Runs.pure b

theorem runs_request {op : Op} {k : Resp op → Program Op Resp α} {t : List (Event Op Resp)}
    {a : α} : Runs (.request op k) t a ↔ ∃ r t', t = ⟨op, r⟩ :: t' ∧ Runs (k r) t' a := by
  constructor
  · intro h
    cases h with
    | request r h => exact ⟨r, _, rfl, h⟩
  · rintro ⟨r, t', rfl, h⟩
    exact Runs.request r h

theorem runs_ask {op : Op} {t : List (Event Op Resp)} {r : Resp op} :
    Runs (Program.ask op) t r ↔ t = [⟨op, r⟩] := by
  constructor
  · intro h
    obtain ⟨r', t', ht, h'⟩ := runs_request.mp h
    obtain ⟨rfl, rfl⟩ := runs_pure.mp h'
    exact ht
  · rintro rfl
    exact Runs.request r (Runs.pure r)

/-- A run of `p >>= f` is a run of `p` followed by a run of `f`. -/
theorem runs_bind {p : Program Op Resp α} {f : α → Program Op Resp β}
    {t : List (Event Op Resp)} {b : β} :
    Runs (p >>= f) t b ↔ ∃ t₁ a t₂, t = t₁ ++ t₂ ∧ Runs p t₁ a ∧ Runs (f a) t₂ b := by
  change Runs (p.bind f) t b ↔ _
  induction p generalizing t with
  | pure a =>
    constructor
    · intro h
      exact ⟨[], a, t, rfl, Runs.pure a, h⟩
    · rintro ⟨t₁, a', t₂, rfl, h₁, h₂⟩
      obtain ⟨rfl, rfl⟩ := runs_pure.mp h₁
      exact h₂
  | request op k ih =>
    constructor
    · intro h
      obtain ⟨r, t', rfl, h'⟩ := runs_request.mp h
      obtain ⟨t₁, a, t₂, rfl, h₁, h₂⟩ := (ih r).mp h'
      exact ⟨⟨op, r⟩ :: t₁, a, t₂, rfl, Runs.request r h₁, h₂⟩
    · rintro ⟨t₁, a, t₂, rfl, h₁, h₂⟩
      obtain ⟨r, t', rfl, h'⟩ := runs_request.mp h₁
      exact Runs.request r ((ih r).mpr ⟨t', a, t₂, rfl, h', h₂⟩)

/-- A run of `p` after one request. -/
theorem runs_ask_bind {op : Op} {f : Resp op → Program Op Resp β} {t : List (Event Op Resp)}
    {b : β} : Runs (Program.ask op >>= f) t b ↔ ∃ r t', t = ⟨op, r⟩ :: t' ∧ Runs (f r) t' b :=
  runs_request (k := f)

/-- A run of one request whose answer is handed on. -/
theorem runs_ask_map {op : Op} {f : Resp op → β} {t : List (Event Op Resp)} {b : β} :
    Runs (Program.ask op >>= fun r => (Pure.pure (f r) : Program Op Resp β)) t b ↔
      ∃ r, t = [⟨op, r⟩] ∧ b = f r := by
  rw [runs_ask_bind]
  constructor
  · rintro ⟨r, t', rfl, h⟩
    obtain ⟨rfl, rfl⟩ := runs_pure.mp h
    exact ⟨r, rfl, rfl⟩
  · rintro ⟨r, rfl, rfl⟩
    exact ⟨r, [], rfl, runs_pure.mpr ⟨rfl, rfl⟩⟩

theorem Runs.bind {p : Program Op Resp α} {f : α → Program Op Resp β}
    {t₁ t₂ : List (Event Op Resp)} {a : α} {b : β} (h₁ : Runs p t₁ a) (h₂ : Runs (f a) t₂ b) :
    Runs (p >>= f) (t₁ ++ t₂) b :=
  runs_bind.mpr ⟨t₁, a, t₂, rfl, h₁, h₂⟩

theorem Runs.map {p : Program Op Resp α} {t : List (Event Op Resp)} {a : α} (h : Runs p t a)
    (f : α → β) : Runs (p >>= fun a => (Pure.pure (f a) : Program Op Resp β)) t (f a) :=
  runs_bind.mpr ⟨t, a, [], by simp, h, runs_pure.mpr ⟨rfl, rfl⟩⟩

/-- Two runs of one program that start on the same answers are the same run. -/
theorem Runs.prefix_unique {p : Program Op Resp α} {t t' u u' : List (Event Op Resp)} {a a' : α}
    (h : Runs p t a) (h' : Runs p t' a') (he : t ++ u = t' ++ u') : t = t' ∧ a = a' ∧ u = u' := by
  induction h generalizing t' with
  | pure a =>
    obtain ⟨rfl, rfl⟩ := runs_pure.mp h'
    exact ⟨rfl, rfl, he⟩
  | @request op k t a r _ ih =>
    obtain ⟨r', s', rfl, hk⟩ := runs_request.mp h'
    simp only [List.cons_append, List.cons.injEq, Event.mk.injEq, heq_eq_eq, true_and] at he
    obtain ⟨rfl, he⟩ := he
    obtain ⟨rfl, rfl, rfl⟩ := ih hk he
    exact ⟨rfl, rfl, rfl⟩

/-! ## Running against a given environment -/

/-- Run `p` against the environment `answer`, which sees the events so far. -/
def Program.exec (answer : List (Event Op Resp) → (op : Op) → Resp op) :
    List (Event Op Resp) → Program Op Resp α → List (Event Op Resp) × α
  | _, .pure a => ([], a)
  | past, .request op k =>
    let e : Event Op Resp := ⟨op, answer past op⟩
    let r := (k (answer past op)).exec answer (past ++ [e])
    (e :: r.1, r.2)

theorem Program.runs_exec (answer : List (Event Op Resp) → (op : Op) → Resp op)
    (past : List (Event Op Resp)) (p : Program Op Resp α) :
    Runs p (p.exec answer past).1 (p.exec answer past).2 := by
  induction p generalizing past with
  | pure a => exact Runs.pure a
  | request op k ih => exact Runs.request (answer past op) (ih (answer past op) _)

/-- Every event of `t` has the answer that the environment gives after the events before it. -/
def Answered (answer : List (Event Op Resp) → (op : Op) → Resp op) :
    List (Event Op Resp) → List (Event Op Resp) → Prop
  | _, [] => True
  | past, e :: t => e.resp = answer past e.op ∧ Answered answer (past ++ [e]) t

theorem answered_append {answer : List (Event Op Resp) → (op : Op) → Resp op}
    {past t u : List (Event Op Resp)} :
    Answered answer past (t ++ u) ↔ Answered answer past t ∧ Answered answer (past ++ t) u := by
  induction t generalizing past with
  | nil => simp [Answered]
  | cons e t ih =>
    rw [List.cons_append, Answered, ih, Answered, and_assoc, List.append_assoc]
    rfl

theorem Program.answered_exec (answer : List (Event Op Resp) → (op : Op) → Resp op)
    (past : List (Event Op Resp)) (p : Program Op Resp α) :
    Answered answer past (p.exec answer past).1 := by
  induction p generalizing past with
  | pure a => exact trivial
  | request op k ih => exact ⟨rfl, ih (answer past op) _⟩

/-- The run against an environment is the one run whose answers it gives. -/
theorem Program.exec_eq {answer : List (Event Op Resp) → (op : Op) → Resp op}
    {past t : List (Event Op Resp)} {p : Program Op Resp α} {a : α} (h : Runs p t a)
    (ha : Answered answer past t) : p.exec answer past = (t, a) := by
  induction h generalizing past with
  | pure a => rfl
  | @request op k t a r h ih =>
    obtain ⟨hr, ht⟩ := ha
    obtain rfl : r = answer past op := hr
    rw [Program.exec, ih ht]

/-! ## Loops -/

/--
The invariant rule for `foldlM`: `I done t s` speaks of the elements already visited, the events
so far and the loop's state.
-/
theorem Runs.foldlM {f : σ → ι → Program Op Resp σ} {I : List ι → List (Event Op Resp) → σ → Prop}
    {l : List ι} {s s' : σ} {t : List (Event Op Resp)} (h : Runs (l.foldlM f s) t s')
    (init : I [] [] s)
    (step : ∀ done x rest u v s₁ s₂, l = done ++ x :: rest → I done u s₁ → Runs (f s₁ x) v s₂ →
      I (done ++ [x]) (u ++ v) s₂) : I l t s' := by
  have key : ∀ (todo done : List ι) (u v : List (Event Op Resp)) (s₁ : σ), l = done ++ todo →
      I done u s₁ → Runs (todo.foldlM f s₁) v s' → I l (u ++ v) s' := by
    intro todo
    induction todo with
    | nil =>
      intro done u v s₁ hl hI hr
      obtain ⟨rfl, rfl⟩ := runs_pure.mp hr
      rw [hl]
      simpa using hI
    | cons x rest ih =>
      intro done u v s₁ hl hI hr
      rw [List.foldlM_cons] at hr
      obtain ⟨v₁, s₂, v₂, rfl, hx, hrest⟩ := runs_bind.mp hr
      rw [← List.append_assoc]
      exact ih (done ++ [x]) (u ++ v₁) v₂ s₂ (by simp [hl]) (step done x rest u v₁ s₁ s₂ hl hI hx)
        hrest
  exact key l [] [] t s rfl init h

/-- In a loop over a list without duplicates, no element is visited twice. -/
theorem not_visited {l done rest : List ι} {x : ι} (h : l.Nodup) (hl : l = done ++ x :: rest) :
    x ∉ done := by
  rw [hl, List.nodup_append] at h
  exact fun hx => h.2.2 x hx x List.mem_cons_self rfl

/-- A loop whose body makes one fixed run makes the concatenation of those runs. -/
theorem runs_forM_eq {f : ι → Program Op Resp Unit} {g : ι → List (Event Op Resp)}
    (hf : ∀ x t, Runs (f x) t () ↔ t = g x) {l : List ι} {t : List (Event Op Resp)} :
    Runs (l.forM f) t () ↔ t = l.flatMap g := by
  induction l generalizing t with
  | nil =>
    change Runs (Pure.pure ()) t () ↔ _
    rw [runs_pure]
    simp
  | cons x l ih =>
    change Runs (f x >>= fun _ => l.forM f) t () ↔ _
    rw [runs_bind, List.flatMap_cons]
    constructor
    · rintro ⟨t₁, _, t₂, rfl, h₁, h₂⟩
      rw [(hf x t₁).mp h₁, ih.mp h₂]
    · rintro rfl
      exact ⟨g x, (), l.flatMap g, rfl, (hf x _).mpr rfl, ih.mpr rfl⟩

/-- The same rule for a loop that asks nothing. -/
theorem foldl_invariant {f : σ → ι → σ} {I : List ι → σ → Prop} {l : List ι} {s : σ}
    (init : I [] s)
    (step : ∀ done x rest s₁, l = done ++ x :: rest → I done s₁ → I (done ++ [x]) (f s₁ x)) :
    I l (l.foldl f s) := by
  have key : ∀ (todo done : List ι) (s₁ : σ), l = done ++ todo → I done s₁ →
      I l (todo.foldl f s₁) := by
    intro todo
    induction todo with
    | nil =>
      intro done s₁ hl hI
      rw [hl]
      simpa using hI
    | cons x rest ih =>
      intro done s₁ hl hI
      exact ih (done ++ [x]) (f s₁ x) (by simp [hl]) (step done x rest s₁ hl hI)
  exact key l [] s rfl init

/-! ## What a program leaves behind -/

/-- A property of traces that holds of the empty trace, and of two traces in a row. -/
structure Sequential (P : List (Event Op Resp) → Prop) : Prop where
  nil : P []
  append : ∀ {t u}, P t → P u → P (t ++ u)

theorem sequential_forall (q : Event Op Resp → Prop) : Sequential fun t => ∀ e ∈ t, q e where
  nil := by simp
  append := by
    intro t u ht hu e he
    rcases List.mem_append.mp he with he | he
    · exact ht e he
    · exact hu e he

/-- `Leaves P p`: the trace of every run of `p` satisfies `P`. -/
def Leaves (P : List (Event Op Resp) → Prop) (p : Program Op Resp α) : Prop :=
  ∀ t a, Runs p t a → P t

section Leaves

variable {P : List (Event Op Resp) → Prop} (hP : Sequential P)
include hP

theorem leaves_pure (a : α) : Leaves P (Pure.pure a : Program Op Resp α) := by
  intro t b h
  obtain ⟨rfl, -⟩ := runs_pure.mp h
  exact hP.nil

theorem leaves_bind {p : Program Op Resp α} {f : α → Program Op Resp β} (hp : Leaves P p)
    (hf : ∀ a, Leaves P (f a)) : Leaves P (p >>= f) := by
  intro t b h
  obtain ⟨t₁, a, t₂, rfl, h₁, h₂⟩ := runs_bind.mp h
  exact hP.append (hp t₁ a h₁) (hf a t₂ b h₂)

theorem leaves_forM {f : ι → Program Op Resp Unit} {l : List ι} (hf : ∀ x ∈ l, Leaves P (f x)) :
    Leaves P (l.forM f) := by
  induction l with
  | nil => exact leaves_pure hP ()
  | cons x l ih =>
    exact leaves_bind hP (hf x List.mem_cons_self)
      (fun _ => ih (fun y hy => hf y (List.mem_cons_of_mem x hy)))

theorem leaves_foldlM {f : σ → ι → Program Op Resp σ} {l : List ι} {s : σ}
    (hf : ∀ s x, Leaves P (f s x)) : Leaves P (l.foldlM f s) := by
  intro t s' h
  refine Runs.foldlM (I := fun _ t _ => P t) h hP.nil ?_
  intro _ x _ u v s₁ s₂ _ hu hv
  exact hP.append hu (hf s₁ x v s₂ hv)

end Leaves

theorem Leaves.ite {P : List (Event Op Resp) → Prop} {p q : Program Op Resp α} {cond : Prop}
    [Decidable cond] (hp : Leaves P p) (hq : Leaves P q) : Leaves P (if cond then p else q) := by
  split
  · exact hp
  · exact hq

/-! ## The requests a program can make -/

/-- `Uses allowed p`: in every run of `p`, every request satisfies `allowed`. -/
def Uses (allowed : Op → Prop) (p : Program Op Resp α) : Prop :=
  ∀ t a, Runs p t a → ∀ e ∈ t, allowed e.op

theorem uses_ask {allowed : Op → Prop} {op : Op} (h : allowed op) :
    Uses allowed (Program.ask op : Program Op Resp (Resp op)) := by
  intro t r hr e he
  rw [runs_ask.mp hr, List.mem_singleton] at he
  rw [he]
  exact h

theorem uses_pure {allowed : Op → Prop} (a : α) :
    Uses allowed (Pure.pure a : Program Op Resp α) :=
  leaves_pure (sequential_forall fun e => allowed e.op) a

theorem Uses.bind {allowed : Op → Prop} {p : Program Op Resp α} {f : α → Program Op Resp β}
    (hp : Uses allowed p) (hf : ∀ a, Uses allowed (f a)) : Uses allowed (p >>= f) :=
  leaves_bind (sequential_forall fun e => allowed e.op) hp hf

theorem Uses.ite {allowed : Op → Prop} {p q : Program Op Resp α} {cond : Prop} [Decidable cond]
    (hp : Uses allowed p) (hq : Uses allowed q) : Uses allowed (if cond then p else q) :=
  Leaves.ite hp hq

theorem Uses.forM {allowed : Op → Prop} {f : ι → Program Op Resp Unit} {l : List ι}
    (hf : ∀ x, Uses allowed (f x)) : Uses allowed (l.forM f) :=
  leaves_forM (sequential_forall fun e => allowed e.op) (fun x _ => hf x)

theorem Uses.foldlM {allowed : Op → Prop} {f : σ → ι → Program Op Resp σ} {l : List ι} {s : σ}
    (hf : ∀ s x, Uses allowed (f s x)) : Uses allowed (l.foldlM f s) :=
  leaves_foldlM (sequential_forall fun e => allowed e.op) hf

end Effect
