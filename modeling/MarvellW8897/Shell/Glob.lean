import Mathlib.Data.List.Infix

/-!
# Patterns of `case`

A pattern of characters and stars, against a whole word. In `case`, a star takes any characters,
slashes and leading dots among them.

* `accepts_star` — a star at the front takes some stretch of the word.
* `accepts_append` — a pattern with a star at its end accepts every longer word.
-/

namespace Shell

inductive Glob where
  | char (c : Char)
  | star
deriving DecidableEq, Repr

namespace Glob

/-- A pattern without other special characters than the star, as it is written. -/
def ofString (s : String) : List Glob :=
  s.toList.map fun c => if c = '*' then star else char c

/-- The pattern for a word in lower case, as `-iname` takes it. -/
def toLower : Glob → Glob
  | char c => char c.toLower
  | star => star

def accepts : List Glob → List Char → Bool
  | [], word => word.isEmpty
  | char _ :: _, [] => false
  | char c :: pattern, d :: word => c == d && accepts pattern word
  | star :: pattern, word => word.tails.any (accepts pattern)

variable {pattern : List Glob} {word : List Char}

theorem accepts_star : accepts (star :: pattern) word = true ↔
    ∃ taken rest, word = taken ++ rest ∧ accepts pattern rest = true := by
  simp only [accepts, List.any_eq_true, List.mem_tails]
  constructor
  · rintro ⟨rest, ⟨taken, rfl⟩, h⟩
    exact ⟨taken, rest, rfl, h⟩
  · rintro ⟨taken, rest, rfl, h⟩
    exact ⟨rest, ⟨taken, rfl⟩, h⟩

/-- What follows the word goes to the last star. -/
theorem accepts_append_star (more : List Char) (h : accepts (pattern ++ [star]) word = true) :
    accepts (pattern ++ [star]) (word ++ more) = true := by
  induction pattern generalizing word with
  | nil => exact accepts_star.mpr ⟨word ++ more, [], by simp, rfl⟩
  | cons token pattern ih =>
    cases token with
    | star =>
      obtain ⟨taken, rest, rfl, hrest⟩ := accepts_star.mp h
      exact accepts_star.mpr ⟨taken, rest ++ more, by simp, ih hrest⟩
    | char c =>
      cases word with
      | nil => cases h
      | cons d word =>
        rw [List.cons_append, accepts, Bool.and_eq_true] at h
        rw [List.cons_append, List.cons_append, accepts, Bool.and_eq_true]
        exact ⟨h.1, ih h.2⟩

/-- A pattern that ends in a star accepts what extends a word that it accepts. -/
theorem accepts_append (hlast : pattern.getLast? = some star) (more : List Char)
    (h : accepts pattern word = true) : accepts pattern (word ++ more) = true := by
  obtain ⟨front, rfl⟩ := List.getLast?_eq_some_iff.mp hlast
  exact accepts_append_star more h

end Glob

end Shell
