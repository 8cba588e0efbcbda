import Mathlib.Data.List.Basic

/-!
# Dictionaries that keep their order

A dictionary is the list of its entries in the order in which the keys were added, as Python keeps
one. `List.lookup` finds the first entry of a key.

* `set` — change the entry of a key in its place, or add one at the end.
* `update` — set several entries, one after the other.
-/

namespace Dictionary

variable {κ ν : Type} [BEq κ]

/-- `d[k] = v`. -/
def set (k : κ) (v : ν) : List (κ × ν) → List (κ × ν)
  | [] => [(k, v)]
  | entry :: d => if k == entry.1 then (entry.1, v) :: d else entry :: set k v d

/-- `d.update(entries)`. -/
def update (entries d : List (κ × ν)) : List (κ × ν) :=
  entries.foldl (fun d entry => set entry.1 entry.2 d) d

variable {k k' : κ} {v v' : ν} {d entries : List (κ × ν)}

/-- Setting an entry to what it is changes nothing. -/
theorem set_of_lookup (h : d.lookup k = some v) : set k v d = d := by
  induction d with
  | nil => simp at h
  | cons entry d ih =>
    obtain ⟨k', v'⟩ := entry
    rw [List.lookup_cons] at h
    rw [set]
    cases hk : k == k' with
    | true =>
      rw [hk] at h
      rw [if_pos rfl, ← Option.some.inj h]
    | false =>
      rw [hk] at h
      rw [if_neg (by simp), ih h]

/-- The keys that were there stay in front, in their order. -/
theorem keys_set (k : κ) (v : ν) (d : List (κ × ν)) :
    d.map Prod.fst <+: (set k v d).map Prod.fst := by
  induction d with
  | nil => exact List.nil_prefix
  | cons entry d ih =>
    rw [set]
    split
    · exact List.prefix_rfl
    · rw [List.map_cons, List.map_cons, List.prefix_cons_inj]
      exact ih

theorem update_cons (entry : κ × ν) (entries d : List (κ × ν)) :
    update (entry :: entries) d = update entries (set entry.1 entry.2 d) := rfl

theorem keys_update (entries d : List (κ × ν)) :
    d.map Prod.fst <+: (update entries d).map Prod.fst := by
  induction entries generalizing d with
  | nil => exact List.prefix_rfl
  | cons entry entries ih => exact (keys_set entry.1 entry.2 d).trans (ih _)

/-- Updating with what is there changes nothing. -/
theorem update_of_lookup (h : ∀ entry ∈ entries, d.lookup entry.1 = some entry.2) :
    update entries d = d := by
  induction entries with
  | nil => rfl
  | cons entry entries ih =>
    rw [update_cons, set_of_lookup (h entry List.mem_cons_self)]
    exact ih fun e he => h e (List.mem_cons_of_mem _ he)

/-! ## Lookups -/

variable [LawfulBEq κ]

@[simp] theorem lookup_set_self (k : κ) (v : ν) (d : List (κ × ν)) :
    (set k v d).lookup k = some v := by
  induction d with
  | nil => simp [set]
  | cons entry d ih =>
    obtain ⟨k', v'⟩ := entry
    rw [set]
    cases h : k == k' with
    | true => simp [List.lookup_cons, h]
    | false => simp [List.lookup_cons, h, ih]

theorem lookup_set_of_ne (h : k' ≠ k) (v : ν) (d : List (κ × ν)) :
    (set k v d).lookup k' = d.lookup k' := by
  induction d with
  | nil => simp [set, List.lookup_cons, beq_eq_false_iff_ne.mpr h]
  | cons entry d ih =>
    obtain ⟨k'', v''⟩ := entry
    rw [set]
    cases hk : k == k'' with
    | true =>
      obtain rfl := eq_of_beq hk
      simp [List.lookup_cons, beq_eq_false_iff_ne.mpr h]
    | false => simp [List.lookup_cons, ih]

/-- A key that is not updated keeps its value. -/
theorem lookup_update_of_notMem (h : k ∉ entries.map Prod.fst) :
    (update entries d).lookup k = d.lookup k := by
  induction entries generalizing d with
  | nil => rfl
  | cons entry entries ih =>
    rw [List.map_cons, List.mem_cons, not_or] at h
    rw [update_cons, ih h.2, lookup_set_of_ne h.1]

/-- An updated key has its new value, if no later entry updates it again. -/
theorem lookup_update_of_mem (hnodup : (entries.map Prod.fst).Nodup) (h : (k, v) ∈ entries) :
    (update entries d).lookup k = some v := by
  induction entries generalizing d with
  | nil => simp at h
  | cons entry entries ih =>
    rw [List.map_cons, List.nodup_cons] at hnodup
    rw [update_cons]
    rcases List.mem_cons.mp h with rfl | h
    · rw [lookup_update_of_notMem hnodup.1, lookup_set_self]
    · exact ih hnodup.2 h

theorem update_update (hnodup : (entries.map Prod.fst).Nodup) :
    update entries (update entries d) = update entries d :=
  update_of_lookup fun _ he => lookup_update_of_mem hnodup he

end Dictionary
