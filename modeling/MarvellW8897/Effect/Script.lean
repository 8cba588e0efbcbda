import MarvellW8897.Effect.Ensures
import MarvellW8897.Effect.Trace

/-!
# Programs that stop

A script asks requests like a program, and can stop before its end, with a reason. Every request is
remembered, so a script can be said to make a request only after others were answered in some way.

* `Script`, `runs_stopped_or` — a run of a sequence stops in its first part, or has both.
* `Exit`, `ensures_script_bind` — conditions at every moment, with a postcondition for each end.
* `Gated`, `gated_ask`, `Gated.bind` — requests that are allowed by what was answered before.
* `Gated.since` — the facts that a part has established itself.
-/

namespace Effect

variable {Op σ Stop α β : Type} {Resp : Op → Type}

/-- A program that returns, or stops with a reason. -/
abbrev Script (Op : Type) (Resp : Op → Type) (Stop : Type) := ExceptT Stop (Program Op Resp)

namespace Script

/-- Ask one request and return its answer. -/
def ask (op : Op) : Script Op Resp Stop (Resp op) :=
  ExceptT.mk (.request op fun r => .pure (.ok r))

/-- End the script. -/
def stop (reason : Stop) : Script Op Resp Stop α := ExceptT.mk (.pure (.error reason))

end Script

variable {p : Script Op Resp Stop α} {f : α → Script Op Resp Stop β}
  {t : List (Event Op Resp)} {r : Except Stop β}

/-- A run of a sequence is one of its first part that stops, or one of each. -/
theorem runs_script_bind : Runs (p >>= f).run t r ↔
    (∃ reason, r = .error reason ∧ Runs p.run t (.error reason)) ∨
      ∃ t₁ a t₂, t = t₁ ++ t₂ ∧ Runs p.run t₁ (.ok a) ∧ Runs (f a).run t₂ r := by
  change Runs (p.run >>= ExceptT.bindCont f) t r ↔ _
  rw [runs_bind]
  constructor
  · rintro ⟨t₁, result, t₂, rfl, h₁, h₂⟩
    cases result with
    | ok a => exact Or.inr ⟨t₁, a, t₂, rfl, h₁, h₂⟩
    | error reason =>
      obtain ⟨rfl, rfl⟩ := runs_pure.mp h₂
      exact Or.inl ⟨reason, rfl, by rwa [List.append_nil]⟩
  · rintro (⟨reason, rfl, h⟩ | ⟨t₁, a, t₂, rfl, h₁, h₂⟩)
    · exact ⟨t, _, [], (List.append_nil t).symm, h, runs_pure.mpr ⟨rfl, rfl⟩⟩
    · exact ⟨t₁, _, t₂, rfl, h₁, h₂⟩

/-! ## Conditions at every moment -/

/-- A postcondition for each of the two ends. -/
def Exit (Q : α → σ → Prop) (E : Stop → σ → Prop) : Except Stop α → σ → Prop
  | .ok a, s => Q a s
  | .error reason, s => E reason s

variable {step : σ → Event Op Resp → σ → Prop} {I : σ → Prop} {Q : α → σ → Prop}
  {R : β → σ → Prop} {E : Stop → σ → Prop} {s : σ}

theorem ensures_script_pure {a : α} (hI : I s) (hQ : Q a s) :
    Ensures step I (pure a : Script Op Resp Stop α).run (Exit Q E) s :=
  ensures_pure hI hQ

theorem ensures_stop {reason : Stop} (hI : I s) (hE : E reason s) :
    Ensures step I (Script.stop reason : Script Op Resp Stop α).run (Exit Q E) s :=
  ensures_pure hI hE

theorem ensures_script_ask_bind {op : Op} {f : Resp op → Script Op Resp Stop β} (hI : I s)
    (h : ∀ r s', step s ⟨op, r⟩ s' → Ensures step I (f r).run (Exit R E) s') :
    Ensures step I (Script.ask op >>= f).run (Exit R E) s :=
  ensures_ask_bind (f := fun r => (f r).run) hI h

/-- A script that stops keeps its reason. -/
theorem ensures_script_bind (hp : Ensures step I p.run (Exit Q E) s)
    (hf : ∀ a s', Q a s' → Ensures step I (f a).run (Exit R E) s') :
    Ensures step I (p >>= f).run (Exit R E) s := by
  refine hp.last.bind fun result s' h => ?_
  cases result with
  | ok a => exact hf a s' h.2
  | error reason => exact ensures_pure h.1 h.2

/-! ## What was asked before -/

variable {need : List (Event Op Resp) → Op → Prop} {past now : List (Event Op Resp)}

/--
After `past`, every request of `p` comes when what was answered before allows it, and `p` returns
with `Q`.
-/
def Gated (need : List (Event Op Resp) → Op → Prop) (p : Script Op Resp Stop α)
    (Q : α → List (Event Op Resp) → Prop) (past : List (Event Op Resp)) : Prop :=
  ∀ t r, Runs p.run t r → Always (fun before e => need before e.op) past t ∧
    ∀ a, r = .ok a → Q a (past ++ t)

section Gated

variable {Q : α → List (Event Op Resp) → Prop} {R : β → List (Event Op Resp) → Prop}

theorem gated_pure {a : α} (h : Q a past) :
    Gated need (pure a : Script Op Resp Stop α) Q past := by
  intro t r hr
  obtain ⟨rfl, rfl⟩ := runs_pure.mp hr
  rw [List.append_nil]
  exact ⟨always_of_forall nofun, fun b hb => Except.ok.inj hb ▸ h⟩

theorem gated_stop {reason : Stop} :
    Gated need (Script.stop reason : Script Op Resp Stop α) Q past := by
  intro t r hr
  obtain ⟨rfl, rfl⟩ := runs_pure.mp hr
  exact ⟨always_of_forall nofun, nofun⟩

/-- An answer is remembered. -/
theorem gated_ask {op : Op} (hop : need past op) :
    Gated need (Script.ask op : Script Op Resp Stop (Resp op))
      (fun r now => now = past ++ [⟨op, r⟩]) past := by
  intro t result hr
  change Runs (.request op fun r => .pure (.ok r)) t result at hr
  obtain ⟨r, t', rfl, hr'⟩ := runs_request.mp hr
  obtain ⟨rfl, rfl⟩ := runs_pure.mp hr'
  refine ⟨?_, fun a ha => ?_⟩
  · intro u e v hsplit
    obtain ⟨rfl, rfl, rfl⟩ : u = [] ∧ e = ⟨op, r⟩ ∧ v = [] := by
      simpa [List.singleton_eq_append_iff] using hsplit
    rwa [List.append_nil]
  · rw [← Except.ok.inj ha]

/-- What follows a script knows what the script left, and all that was there before it. -/
theorem Gated.bind (hp : Gated need p Q past)
    (hf : ∀ a now, past <+: now → Q a now → Gated need (f a) R now) :
    Gated need (p >>= f) R past := by
  intro t r hr
  rcases runs_script_bind.mp hr with ⟨reason, rfl, h⟩ | ⟨t₁, a, t₂, rfl, h₁, h₂⟩
  · exact ⟨(hp t _ h).1, nofun⟩
  · obtain ⟨hfirst, hQ⟩ := hp t₁ _ h₁
    obtain ⟨hrest, hR⟩ := hf a _ (List.prefix_append past t₁) (hQ a rfl) t₂ r h₂
    rw [List.append_assoc] at hR
    exact ⟨always_append hfirst hrest, hR⟩

theorem Gated.mono {Q' : α → List (Event Op Resp) → Prop} (h : Gated need p Q past)
    (hQ : ∀ a now, past <+: now → Q a now → Q' a now) : Gated need p Q' past := by
  intro t r hr
  obtain ⟨halways, hpost⟩ := h t r hr
  exact ⟨halways, fun a ha => hQ a _ (List.prefix_append past t) (hpost a ha)⟩

theorem gated_ask_bind {op : Op} {f : Resp op → Script Op Resp Stop β} (hop : need past op)
    (hf : ∀ r, Gated need (f r) R (past ++ [⟨op, r⟩])) :
    Gated need (Script.ask op >>= f) R past :=
  (gated_ask hop).bind fun r _ _ hnow => hnow ▸ hf r

/-- What a part leaves that asks only what is allowed at any time is left by its own requests. -/
theorem Gated.since {free : Op → Prop} (h : Gated (fun _ => free) p Q [])
    (hfree : ∀ op, free op → ∀ before, need before op) :
    Gated need p (fun a now => ∃ t, now = past ++ t ∧ Q a t) past := by
  intro t r hr
  obtain ⟨halways, hpost⟩ := h t r hr
  refine ⟨fun u e v hsplit => hfree e.op (halways u e v hsplit) (past ++ u), fun a ha => ?_⟩
  exact ⟨t, rfl, hpost a ha⟩

/-- A part that is allowed less, and so has asked nothing else. -/
theorem Gated.asked {less : List (Event Op Resp) → Op → Prop} (h : Gated less p Q past)
    (hless : ∀ before op, less before op → need before op) :
    Gated need p (fun a now => Q a now ∧ ∃ t, now = past ++ t ∧
      ∀ e ∈ t, ∃ before, less before e.op) past := by
  intro t r hr
  obtain ⟨halways, hpost⟩ := h t r hr
  refine ⟨fun u e v hsplit => hless _ _ (halways u e v hsplit), fun a ha => ?_⟩
  refine ⟨hpost a ha, t, rfl, fun e he => ?_⟩
  obtain ⟨u, v, hsplit⟩ := List.append_of_mem he
  exact ⟨past ++ u, halways u e v hsplit⟩

/-- The rule for a loop: what each turn leaves, and keeps, holds at the end for every element. -/
theorem gated_forM {ι : Type} {g : ι → Script Op Resp Stop PUnit}
    {P : ι → List (Event Op Resp) → Prop} (items : List ι)
    (hkeep : ∀ i now now', now <+: now' → P i now → P i now')
    (h : ∀ i ∈ items, ∀ now, past <+: now → Gated need (g i) (fun _ now => P i now) now) :
    Gated need (items.forM g) (fun _ now => ∀ i ∈ items, P i now) past := by
  induction items generalizing past with
  | nil => exact gated_pure (by simp)
  | cons i items ih =>
    refine (h i List.mem_cons_self past List.prefix_rfl).bind fun _ now hnow hi => ?_
    refine (ih fun j hj after hafter =>
      h j (List.mem_cons_of_mem i hj) after (hnow.trans hafter)).mono fun _ last hlast hall => ?_
    exact List.forall_mem_cons.mpr ⟨hkeep i now last hlast hi, hall⟩

end Gated

end Effect
