import Mathlib.Data.List.Induction

/-!
# Labelled paths

`Path step s ls s'` says that the steps labelled `ls`, taken in order, lead from `s` to `s'`.
The constructor adds a step at the end, so induction over a path is induction over a history.

* `Path.invariant` — what every step preserves holds in every state reached.
* `Path.split` / `Path.append` — cutting a path in two, and joining two.
-/

namespace Effect

variable {σ ℓ : Type} {step : σ → ℓ → σ → Prop} {s s' s'' : σ} {ls ls' : List ℓ} {l : ℓ}

inductive Path (step : σ → ℓ → σ → Prop) (s : σ) : List ℓ → σ → Prop where
  | nil : Path step s [] s
  | snoc {ls : List ℓ} {s' s'' : σ} {l : ℓ} (h : Path step s ls s') (hs : step s' l s'') :
      Path step s (ls ++ [l]) s''

namespace Path

theorem eq_of_nil (h : Path step s [] s') : s' = s := by
  generalize hl : ([] : List ℓ) = k at h
  cases h with
  | nil => rfl
  | snoc _ _ => simp at hl

/-- The last step of a path. -/
theorem last (h : Path step s (ls ++ [l]) s'') : ∃ s', Path step s ls s' ∧ step s' l s'' := by
  generalize hl : ls ++ [l] = k at h
  cases h with
  | nil => simp at hl
  | snoc h hs =>
    obtain ⟨rfl, hm⟩ := List.append_inj' hl rfl
    rw [show l = _ by simpa using hm]
    exact ⟨_, h, hs⟩

theorem single (h : step s l s') : Path step s [l] s' := by
  have hp := snoc (nil : Path step s [] s) h
  simpa using hp

theorem append (h : Path step s ls s') (h' : Path step s' ls' s'') :
    Path step s (ls ++ ls') s'' := by
  induction h' with
  | nil => simpa using h
  | snoc _ hs ih =>
    rw [← List.append_assoc]
    exact snoc ih hs

theorem cons (hs : step s l s') (h : Path step s' ls s'') : Path step s (l :: ls) s'' :=
  append (single hs) h

theorem split (h : Path step s (ls ++ ls') s'') :
    ∃ s', Path step s ls s' ∧ Path step s' ls' s'' := by
  induction ls' using List.reverseRecOn generalizing s'' with
  | nil => exact ⟨s'', by simpa using h, nil⟩
  | append_singleton ks k ih =>
    rw [← List.append_assoc] at h
    obtain ⟨b, hb, hs⟩ := last h
    obtain ⟨c, h₁, h₂⟩ := ih hb
    exact ⟨c, h₁, snoc h₂ hs⟩

theorem of_cons (h : Path step s (l :: ls) s'') : ∃ s', step s l s' ∧ Path step s' ls s'' := by
  have hl : l :: ls = [l] ++ ls := rfl
  rw [hl] at h
  obtain ⟨s', h₁, h₂⟩ := split h
  have hn : [l] = [] ++ [l] := rfl
  rw [hn] at h₁
  obtain ⟨a, ha, hs⟩ := last h₁
  rw [eq_of_nil ha] at hs
  exact ⟨s', hs, h₂⟩

/-- An invariant of the history and the state, kept by every step taken from a reached state. -/
theorem invariant {I : List ℓ → σ → Prop} (h : Path step s ls s') (init : I [] s)
    (keep : ∀ ls a l b, Path step s ls a → I ls a → step a l b → I (ls ++ [l]) b) : I ls s' := by
  induction h with
  | nil => exact init
  | snoc h hs ih => exact keep _ _ _ _ h ih hs

/-- A path whose labels all satisfy `P` is a path of the steps that satisfy it. -/
theorem mono {P : ℓ → Prop} (h : Path step s ls s') (hP : ∀ l ∈ ls, P l) :
    Path (fun a l b => step a l b ∧ P l) s ls s' := by
  induction h with
  | nil => exact nil
  | snoc _ hs ih =>
    exact snoc (ih fun l hl => hP l (List.mem_append_left _ hl)) ⟨hs, hP _ (by simp)⟩

end Path

end Effect
