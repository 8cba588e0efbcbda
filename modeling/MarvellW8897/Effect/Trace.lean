import Mathlib.Data.List.Induction

/-!
# Properties of event traces

What a list of events says about a resource, for any type of events.

* `Held grant revoke t` — granted at some point of `t` and not revoked since.
* `lastCommand f t` — the last setting that `t` commanded; `settingAfter_agree_iff` compares two
  settings along a trace.
* `Always P past t` — every event of `t` satisfies `P` in view of the events before it.
* `InOrder Ps t` — `t` has parts with the properties `Ps`, one after the other.
* `Session` — guarded events may occur only between an opening and a closing event.
-/

namespace Effect

variable {ε κ : Type}

/-! ## Grants that are not revoked -/

/-- At some point of `t` there is a grant, and no event after it revokes. -/
def Held (grant revoke : ε → Prop) (t : List ε) : Prop :=
  ∃ u e v, t = u ++ e :: v ∧ grant e ∧ ∀ d ∈ v, ¬ revoke d

theorem Held.append {grant revoke : ε → Prop} {t u : List ε} (h : Held grant revoke t)
    (hu : ∀ d ∈ u, ¬ revoke d) : Held grant revoke (t ++ u) := by
  obtain ⟨v, e, w, rfl, he, hw⟩ := h
  refine ⟨v, e, w ++ u, by simp, he, ?_⟩
  intro d hd
  rcases List.mem_append.mp hd with hd | hd
  · exact hw d hd
  · exact hu d hd

theorem Held.prepend {grant revoke : ε → Prop} {t : List ε} (h : Held grant revoke t)
    (u : List ε) : Held grant revoke (u ++ t) := by
  obtain ⟨v, e, w, rfl, he, hw⟩ := h
  exact ⟨u ++ v, e, w, by simp, he, hw⟩

theorem held_of_mem {grant revoke : ε → Prop} {t : List ε} {e : ε} (he : e ∈ t) (hg : grant e)
    (hr : ∀ d ∈ t, ¬ revoke d) : Held grant revoke t := by
  obtain ⟨u, v, rfl⟩ := List.append_of_mem he
  exact ⟨u, e, v, rfl, hg, fun d hd => hr d (by simp [hd])⟩

/-! ## The last command -/

/-- The setting commanded last, where `f` reads the setting off a command. -/
def lastCommand (f : ε → Option κ) (t : List ε) : Option κ := (t.filterMap f).getLast?

theorem lastCommand_append (f : ε → Option κ) (t u : List ε) :
    lastCommand f (t ++ u) = (lastCommand f u).or (lastCommand f t) := by
  simp [lastCommand, List.getLast?_append]

theorem lastCommand_eq_none {f : ε → Option κ} {t : List ε} (h : ∀ e ∈ t, f e = none) :
    lastCommand f t = none := by
  simp [lastCommand, List.filterMap_eq_nil_iff.mpr h]

theorem exists_lastCommand {f : ε → Option κ} {t : List ε} {e : ε} {k : κ} (he : e ∈ t)
    (hk : f e = some k) : ∃ k', lastCommand f t = some k' := by
  have hm : k ∈ t.filterMap f := List.mem_filterMap.mpr ⟨e, he, hk⟩
  unfold lastCommand
  cases hl : (t.filterMap f).getLast? with
  | none =>
    rw [List.getLast?_eq_none_iff.mp hl] at hm
    simp at hm
  | some k' => exact ⟨k', rfl⟩

/-- The setting after `t`, if it was `k` before. -/
def settingAfter (f : ε → Option κ) (k : κ) (t : List ε) : κ := (lastCommand f t).getD k

@[simp] theorem settingAfter_nil (f : ε → Option κ) (k : κ) : settingAfter f k [] = k := rfl

theorem settingAfter_snoc (f : ε → Option κ) (k : κ) (t : List ε) (e : ε) :
    settingAfter f k (t ++ [e]) = (f e).getD (settingAfter f k t) := by
  unfold settingAfter
  rw [lastCommand_append]
  cases he : f e with
  | none => simp [lastCommand, he]
  | some k' => simp [lastCommand, he]

/-- Two settings agree all along `t` exactly if no event of `t` separates them. -/
theorem settingAfter_agree_iff {f g : ε → Option κ} {k : κ} {t : List ε} :
    (∀ u v, t = u ++ v → settingAfter f k u = settingAfter g k u) ↔
      ∀ u e v, t = u ++ e :: v →
        (f e).getD (settingAfter g k u) = (g e).getD (settingAfter g k u) := by
  constructor
  · intro h u e v he
    have h₁ := h u (e :: v) he
    have h₂ := h (u ++ [e]) v (by simp [he])
    rw [settingAfter_snoc, settingAfter_snoc, h₁] at h₂
    exact h₂
  · intro h u
    induction u using List.reverseRecOn with
    | nil => exact fun _ _ => rfl
    | append_singleton u e ih =>
      intro v he
      have he' : t = u ++ e :: v := by simp [he]
      rw [settingAfter_snoc, settingAfter_snoc, ih _ he']
      exact h u e v he'

/-! ## Events in view of their past -/

/-- Every event `e` of `t` satisfies `P u e`, `u` being `past` and the events of `t` before `e`. -/
def Always (P : List ε → ε → Prop) (past t : List ε) : Prop :=
  ∀ u e v, t = u ++ e :: v → P (past ++ u) e

theorem always_append {P : List ε → ε → Prop} {past t u : List ε} (h : Always P past t)
    (h' : Always P (past ++ t) u) : Always P past (t ++ u) := by
  intro v e w he
  rcases List.append_eq_append_iff.mp he with ⟨a, rfl, ha⟩ | ⟨a, rfl, ha⟩
  · have hP := h' a e w ha
    rwa [List.append_assoc] at hP
  · cases a with
    | nil =>
      have hP := h' [] e w (by simpa using ha.symm)
      simpa using hP
    | cons d a =>
      obtain ⟨rfl, -⟩ := List.cons.inj ha
      exact h v e a rfl

theorem always_of_forall {P : List ε → ε → Prop} {past t : List ε}
    (h : ∀ e ∈ t, ∀ u, P (past ++ u) e) : Always P past t := by
  rintro u e v rfl
  exact h e (by simp) u

/-- Elements that contribute nothing can be left out first. -/
theorem flatMap_filter {α β : Type} {f : α → List β} {p : α → Bool} {l : List α}
    (h : ∀ x ∈ l, p x = false → f x = []) : (l.filter p).flatMap f = l.flatMap f := by
  induction l with
  | nil => rfl
  | cons x l ih =>
    have hl := ih (fun y hy => h y (List.mem_cons_of_mem x hy))
    rw [List.flatMap_cons, ← hl, List.filter_cons]
    split
    · rw [List.flatMap_cons]
    · next hx => rw [h x List.mem_cons_self (by simpa using hx), List.nil_append]

/-! ## Parts in order -/

/-- `t` has parts with these properties, one after the other. -/
def InOrder : List (List ε → Prop) → List ε → Prop
  | [], _ => True
  | P :: Ps, t => ∃ u v w, t = u ++ v ++ w ∧ P v ∧ InOrder Ps w

theorem inOrder_singleton {P : List ε → Prop} {t : List ε} (h : P t) : InOrder [P] t :=
  ⟨[], t, [], by simp, h, trivial⟩

/-- What comes later takes nothing away. -/
theorem InOrder.append_right {Ps : List (List ε → Prop)} {t : List ε} (h : InOrder Ps t)
    (u : List ε) : InOrder Ps (t ++ u) := by
  induction Ps generalizing t with
  | nil => trivial
  | cons P Ps ih =>
    obtain ⟨v, w, x, rfl, hP, hrest⟩ := h
    exact ⟨v, w, x ++ u, by simp, hP, ih hrest⟩

theorem InOrder.mono {Ps : List (List ε → Prop)} {t u : List ε} (h : InOrder Ps t)
    (htu : t <+: u) : InOrder Ps u := by
  obtain ⟨v, rfl⟩ := htu
  exact h.append_right v

/-- One more part at the end. -/
theorem InOrder.snoc {Ps : List (List ε → Prop)} {P : List ε → Prop} {t u : List ε}
    (h : InOrder Ps t) (hP : P u) : InOrder (Ps ++ [P]) (t ++ u) := by
  induction Ps generalizing t with
  | nil => exact ⟨t, u, [], by simp, hP, trivial⟩
  | cons Q Ps ih =>
    obtain ⟨v, w, x, rfl, hQ, hrest⟩ := h
    exact ⟨v, w, x ++ u, by simp, hQ, ih hrest⟩

/-! ## Sessions -/

/-- Events that open and close a session, and those that are allowed only while it is open. -/
structure Session (ε : Type) where
  opens : ε → Bool
  closes : ε → Bool
  guarded : ε → Bool

namespace Session

variable (S : Session ε)

/-- Whether the session is open after `e`, `b` saying whether it was open before. -/
def next (b : Bool) (e : ε) : Bool :=
  if S.opens e then true else if S.closes e then false else b

/-- Whether the session is open after `t`. -/
def after (b : Bool) (t : List ε) : Bool := t.foldl S.next b

/-- Every guarded event of `t` occurs while the session is open. -/
def Respected : Bool → List ε → Prop
  | _, [] => True
  | b, e :: t => (S.guarded e = true → b = true) ∧ Respected (S.next b e) t

variable {S}

instance : ∀ (b : Bool) (t : List ε), Decidable (S.Respected b t)
  | _, [] => inferInstanceAs (Decidable True)
  | b, e :: t =>
    have : Decidable (S.Respected (S.next b e) t) := instDecidableRespected (S.next b e) t
    inferInstanceAs (Decidable (_ ∧ _))

@[simp] theorem after_nil (b : Bool) : S.after b [] = b := rfl

@[simp] theorem after_cons (b : Bool) (e : ε) (t : List ε) :
    S.after b (e :: t) = S.after (S.next b e) t := rfl

@[simp] theorem after_append (b : Bool) (t u : List ε) :
    S.after b (t ++ u) = S.after (S.after b t) u := List.foldl_append

theorem respected_append {b : Bool} {t u : List ε} :
    S.Respected b (t ++ u) ↔ S.Respected b t ∧ S.Respected (S.after b t) u := by
  induction t generalizing b with
  | nil => simp [Respected]
  | cons e t ih => simp only [List.cons_append, Respected, ih, after_cons, and_assoc]

theorem after_eq {b : Bool} {t : List ε} (h : ∀ e ∈ t, S.opens e = false ∧ S.closes e = false) :
    S.after b t = b := by
  induction t with
  | nil => rfl
  | cons e t ih =>
    have he := h e (by simp)
    rw [after_cons, show S.next b e = b by simp [next, he]]
    exact ih (fun d hd => h d (by simp [hd]))

/-- While the session stays open, every event is allowed. -/
theorem respected_open {t : List ε} (h : ∀ e ∈ t, S.closes e = false) : S.Respected true t := by
  induction t with
  | nil => trivial
  | cons e t ih =>
    refine ⟨fun _ => rfl, ?_⟩
    rw [show S.next true e = true by simp [next, h e (by simp)]]
    exact ih (fun d hd => h d (by simp [hd]))

/-- Events that are not guarded are allowed at any time. -/
theorem respected_unguarded {b : Bool} {t : List ε} (h : ∀ e ∈ t, S.guarded e = false) :
    S.Respected b t := by
  induction t generalizing b with
  | nil => trivial
  | cons e t ih =>
    exact ⟨fun hg => by simp [h e (by simp)] at hg, ih (fun d hd => h d (by simp [hd]))⟩

end Session

end Effect
