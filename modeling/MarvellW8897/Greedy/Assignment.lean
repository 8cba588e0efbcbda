import Mathlib.Data.Finset.Card
import Mathlib.Data.Fintype.Basic
import Mathlib.Logic.Function.Basic

/-!
# Greedy assignment

Takers come one after the other, and each takes the first item of a list that fits it and that
nobody has taken. The relation `fits` is arbitrary, and a pass may start from an assignment left by
another pass.

* `pass_turn` — what a taker gets is decided when its turn comes.
* `pass_fits`, `pass_injective`, `pass_exhausted` — what holds after a pass.
* `pass_order` — takers that fit the same items get them in the order of their turns.
* `card_assigned` — an assignment that cannot be extended serves as many as possible.
-/

namespace Greedy

variable {α β : Type} {fits : α → β → Prop} {items : List β}
  {m : α → Option β} {l : List α} {a a' : α} {b b' : β}

/-- Somebody has the item. -/
def Taken (m : α → Option β) (b : β) : Prop := ∃ a, m a = some b

/-- Nobody shares an item. -/
def Injective (m : α → Option β) : Prop := ∀ a a' b, m a = some b → m a' = some b → a = a'

open Classical in
/-- The first item that fits `a` and is not taken. -/
noncomputable def firstFree (fits : α → β → Prop) (items : List β) (m : α → Option β) (a : α) :
    Option β :=
  items.find? fun b => fits a b ∧ ¬ Taken m b

open Classical in
theorem firstFree_eq_some (h : firstFree fits items m a = some b) :
    fits a b ∧ ¬ Taken m b ∧ ∃ before after, items = before ++ b :: after ∧
      ∀ b' ∈ before, fits a b' → Taken m b' := by
  obtain ⟨hb, before, after, he, hbefore⟩ := List.find?_eq_some_iff_append.mp h
  rw [decide_eq_true_iff] at hb
  refine ⟨hb.1, hb.2, before, after, he, ?_⟩
  intro b' hb' hfits
  have hno := hbefore b' hb'
  by_contra htaken
  simp [hfits, htaken] at hno

open Classical in
theorem firstFree_eq_none (h : firstFree fits items m a = none) (hb : b ∈ items)
    (hfits : fits a b) : Taken m b := by
  have hno := List.find?_eq_none.mp h b hb
  by_contra htaken
  simp [hfits, htaken] at hno

variable [DecidableEq α]

/-- The turn of `a`: it takes an item, unless it has one. -/
noncomputable def step (fits : α → β → Prop) (items : List β) (m : α → Option β) (a : α) :
    α → Option β :=
  if m a = none then Function.update m a (firstFree fits items m a) else m

/-- The turns of `l`, in order. -/
noncomputable def pass (fits : α → β → Prop) (items : List β) (m : α → Option β) (l : List α) :
    α → Option β :=
  l.foldl (step fits items) m

/-! ## One turn -/

theorem step_of_ne (h : a' ≠ a) : step fits items m a a' = m a' := by
  unfold step
  split
  · exact Function.update_of_ne h ..
  · rfl

theorem step_self (h : m a = none) : step fits items m a a = firstFree fits items m a := by
  unfold step
  rw [if_pos h]
  exact Function.update_self ..

/-- Nobody loses an item. -/
theorem step_keeps (h : m a' = some b) : step fits items m a a' = some b := by
  by_cases ha : a' = a
  · unfold step
    rw [if_neg (by rw [← ha, h]; simp)]
    exact h
  · rw [step_of_ne ha]
    exact h

theorem Injective.step (h : Injective m) : Injective (step fits items m a) := by
  have hnew : ∀ b, m a = none → firstFree fits items m a = some b → ¬ Taken m b :=
    fun b _ hf => (firstFree_eq_some hf).2.1
  unfold Greedy.step
  split
  · next ha =>
    intro x y b hx hy
    by_cases hxa : x = a <;> by_cases hya : y = a
    · rw [hxa, hya]
    · rw [hxa, Function.update_self] at hx
      rw [Function.update_of_ne hya] at hy
      exact absurd ⟨y, hy⟩ (hnew b ha hx)
    · rw [Function.update_of_ne hxa] at hx
      rw [hya, Function.update_self] at hy
      exact absurd ⟨x, hx⟩ (hnew b ha hy)
    · rw [Function.update_of_ne hxa] at hx
      rw [Function.update_of_ne hya] at hy
      exact h x y b hx hy
  · exact h

/-! ## A pass -/

theorem pass_append (l l' : List α) :
    pass fits items m (l ++ l') = pass fits items (pass fits items m l) l' :=
  List.foldl_append

theorem pass_keeps (h : m a = some b) : pass fits items m l a = some b := by
  induction l generalizing m with
  | nil => exact h
  | cons x l ih => exact ih (step_keeps h)

theorem Taken.pass (h : Taken m b) (l : List α) : Taken (pass fits items m l) b := by
  obtain ⟨a, ha⟩ := h
  exact ⟨a, pass_keeps ha⟩

theorem Injective.pass (h : Injective m) (l : List α) : Injective (pass fits items m l) := by
  induction l generalizing m with
  | nil => exact h
  | cons x l ih => exact ih h.step

theorem pass_of_not_mem (h : a ∉ l) : pass fits items m l a = m a := by
  induction l generalizing m with
  | nil => rfl
  | cons x l ih =>
    rw [List.mem_cons, not_or] at h
    exact (ih h.2).trans (step_of_ne h.1)

omit [DecidableEq α] in
/-- Nobody has two turns. -/
theorem not_mem_of_nodup {before after : List α} (hl : (before ++ a :: after).Nodup) :
    a ∉ before ∧ a ∉ after := by
  have hnd := List.nodup_middle.mp hl
  rw [List.nodup_cons, List.mem_append, not_or] at hnd
  exact hnd.1

/-- What a taker without an item gets is decided when its turn comes. -/
theorem pass_turn {before after : List α} (hl : (before ++ a :: after).Nodup) (hm : m a = none) :
    pass fits items m (before ++ a :: after) a =
      firstFree fits items (pass fits items m before) a := by
  obtain ⟨hbefore, hafter⟩ := not_mem_of_nodup hl
  rw [pass_append]
  show pass fits items (step fits items _ a) after a = _
  rw [pass_of_not_mem hafter, step_self (by rw [pass_of_not_mem hbefore, hm])]

/-- The turn at which a taker got its item. -/
theorem exists_turn (hl : l.Nodup) (hm : m a = none) (h : pass fits items m l a = some b) :
    ∃ before after, l = before ++ a :: after ∧
      firstFree fits items (pass fits items m before) a = some b := by
  have hmem : a ∈ l := by
    by_contra hn
    rw [pass_of_not_mem hn, hm] at h
    simp at h
  obtain ⟨before, after, rfl⟩ := List.append_of_mem hmem
  rw [pass_turn hl hm] at h
  exact ⟨before, after, rfl, h⟩

/-- What a taker gets fits it. -/
theorem pass_fits (hl : l.Nodup) (hm : m a = none) (h : pass fits items m l a = some b) :
    fits a b ∧ b ∈ items := by
  obtain ⟨before, after, -, hf⟩ := exists_turn hl hm h
  obtain ⟨hfits, -, u, v, rfl, -⟩ := firstFree_eq_some hf
  exact ⟨hfits, by simp⟩

/-- An item that fits a taker without one was taken in the end, before its turn. -/
theorem pass_exhausted {before after : List α} (hl : (before ++ a :: after).Nodup)
    (h : pass fits items m (before ++ a :: after) a = none) (hb : b ∈ items) (hfits : fits a b) :
    Taken (pass fits items m before) b := by
  have hm : m a = none := by
    cases hma : m a with
    | none => rfl
    | some c =>
      rw [pass_keeps hma] at h
      simp at h
  rw [pass_turn hl hm] at h
  exact firstFree_eq_none h hb hfits

/-- Of two takers that come in this order, the first gets an item in front of that of the second. -/
theorem pass_order {before between after : List α}
    (hl : (before ++ a :: (between ++ a' :: after)).Nodup) (hm : m a = none) (hm' : m a' = none)
    (hb : pass fits items m (before ++ a :: (between ++ a' :: after)) a = some b)
    (hb' : pass fits items m (before ++ a :: (between ++ a' :: after)) a' = some b')
    (hfits : fits a b') : ∃ u v w, items = u ++ b :: (v ++ b' :: w) := by
  have hfirst := (not_mem_of_nodup hl).1
  rw [pass_turn hl hm] at hb
  have hsplit : before ++ a :: (between ++ a' :: after) =
      (before ++ a :: between) ++ a' :: after := by simp
  rw [hsplit] at hb' hl
  rw [pass_turn hl hm', pass_append] at hb'
  obtain ⟨-, hfree', u', v', he', -⟩ := firstFree_eq_some hb'
  obtain ⟨-, -, u, v, he, hu⟩ := firstFree_eq_some hb
  have hmem : b' ∈ u ++ b :: v := by
    rw [← he, he']
    simp
  -- the item of the second was still free when the first chose, and the first did not choose it
  rcases List.mem_append.mp hmem with hmem | hmem
  · exact absurd ((hu b' hmem hfits).pass _) hfree'
  rcases List.mem_cons.mp hmem with rfl | hmem
  · refine absurd ⟨a, ?_⟩ hfree'
    show pass fits items (step fits items _ a) between a = _
    refine pass_keeps ?_
    rw [step_self (by rw [pass_of_not_mem hfirst, hm]), hb]
  · obtain ⟨v, w, rfl⟩ := List.append_of_mem hmem
    exact ⟨u, v, w, he⟩

/-! ## How many are served -/

omit [DecidableEq α] in
/-- Where nobody is left without an item, or no item is left, as many are served as possible. -/
theorem card_assigned [DecidableEq β] {E : Finset α} {R : Finset β} (hinj : Injective m)
    (hE : ∀ a b, m a = some b → a ∈ E ∧ b ∈ R)
    (hmax : (∀ a ∈ E, m a ≠ none) ∨ ∀ b ∈ R, Taken m b) :
    (E.filter fun a => m a ≠ none).card = min E.card R.card := by
  have hon : Set.InjOn m (E.filter fun a => m a ≠ none) := by
    intro a ha a' _ he
    obtain ⟨b, hb⟩ := Option.ne_none_iff_exists'.mp (Finset.mem_filter.mp ha).2
    exact hinj a a' b hb (he.symm.trans hb)
  have himage : ((E.filter fun a => m a ≠ none).image m).card =
      (E.filter fun a => m a ≠ none).card := Finset.card_image_of_injOn hon
  have hsome : (R.image some).card = R.card :=
    Finset.card_image_of_injective R (Option.some_injective β)
  have hE' : (E.filter fun a => m a ≠ none).card ≤ E.card := Finset.card_filter_le _ _
  have hR' : (E.filter fun a => m a ≠ none).card ≤ R.card := by
    rw [← himage, ← hsome]
    refine Finset.card_le_card ?_
    intro x hx
    obtain ⟨a, ha, rfl⟩ := Finset.mem_image.mp hx
    obtain ⟨b, hb⟩ := Option.ne_none_iff_exists'.mp (Finset.mem_filter.mp ha).2
    rw [hb]
    exact Finset.mem_image_of_mem some (hE a b hb).2
  rcases hmax with hall | hall
  · have hself : (E.filter fun a => m a ≠ none) = E := Finset.filter_true_of_mem hall
    rw [hself] at hR' ⊢
    exact (Nat.min_eq_left hR').symm
  · have hge : R.card ≤ (E.filter fun a => m a ≠ none).card := by
      rw [← himage, ← hsome]
      refine Finset.card_le_card ?_
      intro x hx
      obtain ⟨b, hb, rfl⟩ := Finset.mem_image.mp hx
      obtain ⟨a, ha⟩ := hall b hb
      refine Finset.mem_image.mpr ⟨a, Finset.mem_filter.mpr ⟨(hE a b ha).1, ?_⟩, ha⟩
      simp [ha]
    omega

end Greedy
