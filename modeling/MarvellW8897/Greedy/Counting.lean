import Mathlib.Data.Fintype.Card
import Mathlib.Data.List.Count
import Mathlib.Data.List.FinRange
import Mathlib.Data.List.Nodup
import Mathlib.Logic.Equiv.Fintype
import MarvellW8897.Greedy.Assignment

/-!
# Who is served

Takers and items fall into classes, and an item fits a taker if both are admitted and of one class.
Then whether a taker is served is a matter of two numbers, in which the order of the items does not
occur.

* `freeItems_step` — a turn uses up the first free item of one class.
* `length_freeItems` — how many are left after a pass.
* `card_taken` — as many items are taken as takers are served.
* `pass_serves_iff` — a taker is served if fewer takers of its class wait before it than there are
  free items.
* `pass_serves_congr` — so two lists of items with the same numbers serve the same takers.
* `exists_reindexing` — two orders of a list are the same up to a permutation of the indices.
-/

namespace Greedy

variable {α β κ : Type} [DecidableEq α] {fits : α → β → Prop} {items : List β} {m : α → Option β}
  {l : List α} {a x : α} {b : β} {k : κ}

/-- An item fits a taker exactly if both are admitted and of one class. -/
structure Classes (fits : α → β → Prop) (A : α → Prop) (B : β → Prop) (key : α → κ)
    (key' : β → κ) : Prop where
  fits_iff : ∀ a b, fits a b ↔ A a ∧ B b ∧ key' b = key a

/-- A taker of class `k` without an item. -/
def Waiting (A : α → Prop) (key : α → κ) (m : α → Option β) (k : κ) (a : α) : Prop :=
  A a ∧ m a = none ∧ key a = k

open Classical in
/-- The items of class `k` that nobody has. -/
noncomputable def freeItems (B : β → Prop) (key' : β → κ) (items : List β) (m : α → Option β)
    (k : κ) : List β :=
  items.filter fun b => B b ∧ key' b = k ∧ ¬ Taken m b

theorem taken_step : Taken (step fits items m a) b ↔
    Taken m b ∨ m a = none ∧ firstFree fits items m a = some b := by
  constructor
  · rintro ⟨x, hx⟩
    by_cases hxa : x = a
    · rw [hxa] at hx
      by_cases ha : m a = none
      · rw [step_self ha] at hx
        exact Or.inr ⟨ha, hx⟩
      · unfold step at hx
        rw [if_neg ha] at hx
        exact Or.inl ⟨a, hx⟩
    · rw [step_of_ne hxa] at hx
      exact Or.inl ⟨x, hx⟩
  · rintro (⟨x, hx⟩ | ⟨ha, hf⟩)
    · exact ⟨x, step_keeps hx⟩
    · exact ⟨a, (step_self ha).trans hf⟩

section Classes

variable {A : α → Prop} {B : β → Prop} {key : α → κ} {key' : β → κ}

open Classical in
/-- What a turn leaves of a class. -/
theorem freeItems_filter : freeItems B key' items (step fits items m a) k =
    (freeItems B key' items m k).filter
      fun b => ¬ (m a = none ∧ firstFree fits items m a = some b) := by
  unfold freeItems
  rw [List.filter_filter]
  congr 1
  funext b
  rw [Bool.eq_iff_iff, Bool.and_eq_true]
  simp only [decide_eq_true_eq, taken_step]
  tauto

variable (h : Classes fits A B key key')
include h

omit [DecidableEq α] in
open Classical in
theorem Classes.firstFree_eq (ha : A a) :
    firstFree fits items m a = (freeItems B key' items m (key a)).head? := by
  unfold firstFree freeItems
  rw [List.head?_filter]
  congr 1
  funext b
  rw [Bool.eq_iff_iff, decide_eq_true_iff, decide_eq_true_iff, h.fits_iff]
  simp only [ha, true_and, and_assoc]

open Classical in
/-- The turn of a taker that waits uses up the first free item of its class, and no other. -/
theorem Classes.freeItems_step (hitems : items.Nodup) :
    freeItems B key' items (step fits items m a) k =
      if Waiting A key m k a then (freeItems B key' items m k).tail
      else freeItems B key' items m k := by
  rw [freeItems_filter]
  have hnodup : (freeItems B key' items m k).Nodup := hitems.filter _
  have hkey : ∀ b ∈ freeItems B key' items m k, key' b = k := by
    intro b hb
    have hp := (List.mem_filter.mp hb).2
    rw [decide_eq_true_iff] at hp
    exact hp.2.1
  split
  · next hw =>
    obtain ⟨ha, hm, rfl⟩ := hw
    rw [h.firstFree_eq ha]
    cases hf : freeItems B key' items m (key a) with
    | nil => rfl
    | cons b rest =>
      rw [hf, List.nodup_cons] at hnodup
      rw [List.filter_cons_of_neg (by simp [hm]), List.tail_cons, List.filter_eq_self]
      intro b' hb'
      have hne : b ≠ b' := fun he => hnodup.1 (he ▸ hb')
      simpa [hm] using hne
  · next hw =>
    rw [List.filter_eq_self]
    intro b hb
    rw [decide_eq_true_iff]
    rintro ⟨hm, hf⟩
    have hfits := (h.fits_iff a b).mp (firstFree_eq_some hf).1
    exact hw ⟨hfits.1, hm, hfits.2.2.symm.trans (hkey b hb)⟩

open Classical in
/-- How many items of a class are left after a pass. -/
theorem Classes.length_freeItems (hitems : items.Nodup) (hl : l.Nodup) :
    (freeItems B key' items (pass fits items m l) k).length =
      (freeItems B key' items m k).length - l.countP fun a => Waiting A key m k a := by
  induction l generalizing m with
  | nil => rfl
  | cons x l ih =>
    rw [List.nodup_cons] at hl
    show (freeItems B key' items (pass fits items (step fits items m x) l) k).length = _
    rw [ih hl.2, h.freeItems_step hitems, List.countP_cons]
    -- the turn of `x` does not touch the takers after it
    have hrest : (l.countP fun a => Waiting A key (step fits items m x) k a) =
        l.countP fun a => Waiting A key m k a := by
      refine List.countP_congr fun a ha => ?_
      have hne : a ≠ x := fun he => hl.1 (he ▸ ha)
      rw [decide_eq_true_iff, decide_eq_true_iff, Waiting, Waiting, step_of_ne hne]
    rw [hrest]
    by_cases hw : Waiting A key m k x
    · rw [if_pos hw, if_pos (decide_eq_true hw), List.length_tail]
      omega
    · rw [if_neg hw, if_neg (by simpa using hw)]
      rfl

open Classical in
/-- A taker is served exactly if there is an item left when those before it have had their turns. -/
theorem Classes.pass_serves_iff {before after : List α} (hitems : items.Nodup)
    (hl : (before ++ a :: after).Nodup) (ha : A a) (hm : m a = none) :
    pass fits items m (before ++ a :: after) a ≠ none ↔
      (before.countP fun x => Waiting A key m (key a) x) <
        (freeItems B key' items m (key a)).length := by
  have hbefore : before.Nodup := (List.nodup_append.mp hl).1
  rw [pass_turn hl hm, h.firstFree_eq ha, Ne, List.head?_eq_none_iff, ← List.length_eq_zero_iff,
    h.length_freeItems hitems hbefore]
  omega

/-- A taker that is not admitted is left out. -/
theorem Classes.pass_eq_none (hl : l.Nodup) (ha : ¬ A a) (hm : m a = none) :
    pass fits items m l a = none := by
  by_contra hne
  obtain ⟨b, hb⟩ := Option.ne_none_iff_exists'.mp hne
  exact ha ((h.fits_iff a b).mp (pass_fits hl hm hb).1).1

end Classes

omit [DecidableEq α] in
open Classical in
/-- As many items are taken as takers have one. -/
theorem card_taken {E : Finset α} {R : Finset β} (hinj : Injective m)
    (hE : ∀ a b, m a = some b → a ∈ E ∧ b ∈ R) :
    (R.filter fun b => Taken m b).card = (E.filter fun a => m a ≠ none).card := by
  have hsome : ((R.filter fun b => Taken m b).image some).card =
      (R.filter fun b => Taken m b).card :=
    Finset.card_image_of_injective _ (Option.some_injective β)
  have hon : Set.InjOn m (E.filter fun a => m a ≠ none) := by
    intro a ha a' _ he
    obtain ⟨b, hb⟩ := Option.ne_none_iff_exists'.mp (Finset.mem_filter.mp ha).2
    exact hinj a a' b hb (he.symm.trans hb)
  rw [← hsome, ← Finset.card_image_of_injOn hon]
  congr 1
  ext x
  simp only [Finset.mem_image, Finset.mem_filter]
  constructor
  · rintro ⟨b, ⟨-, a, ha⟩, rfl⟩
    exact ⟨a, ⟨(hE a b ha).1, by simp [ha]⟩, ha⟩
  · rintro ⟨a, ⟨-, hne⟩, rfl⟩
    obtain ⟨b, hb⟩ := Option.ne_none_iff_exists'.mp hne
    exact ⟨b, ⟨(hE a b hb).2, a, hb⟩, hb.symm⟩

/--
Two passes over the same takers serve the same ones, if they start alike and there are as many free
items of each class.
-/
theorem pass_serves_congr {γ : Type} {fits' : α → γ → Prop} {items' : List γ} {m' : α → Option γ}
    {A : α → Prop} {B : β → Prop} {B' : γ → Prop} {key : α → κ} {keyB : β → κ} {keyC : γ → κ}
    (h : Classes fits A B key keyB) (h' : Classes fits' A B' key keyC) (hitems : items.Nodup)
    (hitems' : items'.Nodup) (hl : l.Nodup) (hm : ∀ x, m x = none ↔ m' x = none)
    (hcount : ∀ k, (freeItems B keyB items m k).length = (freeItems B' keyC items' m' k).length) :
    pass fits items m l a = none ↔ pass fits' items' m' l a = none := by
  by_cases ha : m a = none
  · by_cases hA : A a
    · by_cases hmem : a ∈ l
      · obtain ⟨before, after, rfl⟩ := List.append_of_mem hmem
        rw [← not_iff_not]
        refine (h.pass_serves_iff hitems hl hA ha).trans
          (Iff.trans ?_ (h'.pass_serves_iff hitems' hl hA ((hm a).mp ha)).symm)
        have hwaiting : Waiting A key m (key a) = Waiting A key m' (key a) := by
          funext x
          exact propext (and_congr_right fun _ => and_congr_left fun _ => hm x)
        rw [hcount, hwaiting]
      · rw [pass_of_not_mem hmem, pass_of_not_mem hmem]
        exact hm a
    · exact iff_of_true (h.pass_eq_none hl hA ha) (h'.pass_eq_none hl hA ((hm a).mp ha))
  · obtain ⟨b, hb⟩ := Option.ne_none_iff_exists'.mp ha
    obtain ⟨c, hc⟩ := Option.ne_none_iff_exists'.mp (fun hn => ha ((hm a).mpr hn))
    rw [pass_keeps hb, pass_keeps hc]
    simp

/-! ## Two orders of one list -/

/-- The entries of a list at the first `n` indices, with `none` where it has ended. -/
theorem ofFn_entries {α : Type} {n : Nat} {l : List α} (h : l.length ≤ n) :
    List.ofFn (fun i : Fin n => l[i.val]?) =
      l.map some ++ List.replicate (n - l.length) none := by
  apply List.ext_getElem
  · simp
    omega
  · intro i hi _
    rw [List.getElem_ofFn, List.getElem_append]
    split
    · next hl =>
      rw [List.length_map] at hl
      simp [hl]
    · next hl =>
      rw [List.length_map, Nat.not_lt] at hl
      simp [hl]

theorem exists_perm_of_ofFn {α : Type} {n : Nat} {f g : Fin n → α}
    (h : (List.ofFn f).Perm (List.ofFn g)) : ∃ σ : Equiv.Perm (Fin n), ∀ i, g (σ i) = f i := by
  classical
  have hcount : ∀ (f : Fin n → α) (a : α),
      Fintype.card {i // f i = a} = (List.ofFn f).count a := by
    intro f a
    rw [Fintype.card_subtype, List.ofFn_eq_map, List.count, List.countP_map, Finset.card_def,
      Finset.filter_val, ← Multiset.countP_eq_card_filter, Fin.univ_def, Multiset.coe_countP]
    exact List.countP_congr fun i _ => by simp
  -- each value has as many indices in both
  have hfiber : ∀ a, Nonempty ({i // f i = a} ≃ {i // g i = a}) := by
    intro a
    rw [← Fintype.card_eq, hcount, hcount]
    exact h.count_eq a
  exact ⟨Equiv.ofFiberEquiv fun a => (hfiber a).some, Equiv.ofFiberEquiv_map _⟩

/-- Two orders of a list are the same up to a permutation of the indices. -/
theorem exists_reindexing {α : Type} {n : Nat} {l l' : List α} (h : l.Perm l')
    (hlength : l.length ≤ n) : ∃ σ : Equiv.Perm (Fin n), ∀ i, l'[(σ i).val]? = l[i.val]? := by
  refine exists_perm_of_ofFn (f := fun i : Fin n => l[i.val]?) (g := fun i => l'[i.val]?) ?_
  rw [ofFn_entries hlength, ofFn_entries (h.length_eq ▸ hlength), h.length_eq]
  exact (h.map some).append_right _

end Greedy
