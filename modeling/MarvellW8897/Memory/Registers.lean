import Mathlib.Logic.Function.Basic
import MarvellW8897.Effect.Path
import MarvellW8897.Effect.Trace

/-!
# Files of registers

A file has a register at some of the keys, and a value in each. A request reads a register, writes
it, or writes it and reads it back; where there is no register it is refused, and changes nothing.

* `get_path`, `answer_path` — a register holds, and a read is answered with, what was last written.
-/

namespace Registers

open Effect

variable {K V : Type} [DecidableEq K]

/-- What each register holds; `none` where there is none. -/
abbrev File (K V : Type) := K → Option V

inductive Request (K V : Type) where
  | read (k : K)
  | write (k : K) (v : V)
  | writeRead (k : K) (v : V)
deriving DecidableEq

inductive Answer (V : Type) where
  | value (v : V)
  | done
  | refused
deriving DecidableEq

/-- The register at `k` set to `v`, if there is one. -/
def File.set (file : File K V) (k : K) (v : V) : File K V :=
  Function.update file k ((file k).map fun _ => v)

/-- The answer of `file`, and the file afterwards. -/
def File.respond (file : File K V) : Request K V → Answer V × File K V
  | .read k =>
    match file k with
    | some v => (.value v, file)
    | none => (.refused, file)
  | .write k v => if (file k).isSome then (.done, file.set k v) else (.refused, file)
  | .writeRead k v => if (file k).isSome then (.value v, file.set k v) else (.refused, file)

/-- One request, with its answer. -/
def Step (file : File K V) (exchange : Request K V × Answer V) (file' : File K V) : Prop :=
  file.respond exchange.1 = (exchange.2, file')

/-- The value that an exchange left in the register at `k`, if it did. -/
def written (k : K) : Request K V × Answer V → Option V
  | (.write j v, .done) => if j = k then some v else none
  | (.writeRead j _, .value v) => if j = k then some v else none
  | _ => none

variable {file file' : File K V} {k : K} {v : V} {exchange : Request K V × Answer V}
  {exchanges : List (Request K V × Answer V)}

theorem File.set_same (h : (file k).isSome) : file.set k v k = some v := by
  obtain ⟨u, hu⟩ := Option.isSome_iff_exists.mp h
  rw [File.set, Function.update_self, hu, Option.map_some]

theorem File.set_of_ne {j : K} (h : j ≠ k) : file.set k v j = file j :=
  Function.update_of_ne h _ _

theorem get_step (h : Step file exchange file') :
    file' k = (written k exchange).or (file k) := by
  obtain ⟨request, answer⟩ := exchange
  unfold Step File.respond at h
  cases request with
  | read j =>
    dsimp only at h
    split at h
    · obtain ⟨rfl, rfl⟩ := Prod.mk.inj h
      rfl
    · obtain ⟨rfl, rfl⟩ := Prod.mk.inj h
      rfl
  | write j v | writeRead j v =>
    dsimp only at h
    split at h
    · next hsome =>
      obtain ⟨rfl, rfl⟩ := Prod.mk.inj h
      by_cases hj : j = k
      · subst hj
        rw [File.set_same hsome]
        simp [written]
      · rw [File.set_of_ne (Ne.symm hj)]
        simp [written, hj]
    · obtain ⟨rfl, rfl⟩ := Prod.mk.inj h
      rfl

/-- A register holds what was last written to it, or what it held at first. -/
theorem get_path (h : Path Step file exchanges file') :
    file' k = (lastCommand (written k) exchanges).or (file k) := by
  induction h with
  | nil => rfl
  | snoc _ hs ih =>
    rw [get_step hs, ih, lastCommand_append, Option.or_assoc]
    congr 1
    simp [lastCommand]

/-- The answer to a read that finds `found`. -/
def answerOf : Option V → Answer V
  | some v => .value v
  | none => .refused

/-- A read is answered with what was last written to its register, or with what it held at first. -/
theorem answer_path {done rest : List (Request K V × Answer V)} {answer : Answer V}
    (h : Path Step file (done ++ (.read k, answer) :: rest) file') :
    answer = answerOf ((lastCommand (written k) done).or (file k)) := by
  obtain ⟨file₁, hdone, hrest⟩ := h.split
  obtain ⟨file₂, hstep, -⟩ := hrest.of_cons
  rw [← get_path hdone]
  unfold Step File.respond at hstep
  dsimp only at hstep
  split at hstep
  · next v hv =>
    rw [hv]
    exact (Prod.mk.inj hstep).1.symm
  · next hv =>
    rw [hv]
    exact (Prod.mk.inj hstep).1.symm

end Registers
