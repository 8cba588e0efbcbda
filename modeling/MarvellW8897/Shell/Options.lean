import MarvellW8897.Effect.Trace

/-!
# The loop over the arguments of a script

`while [[ $# -gt 0 ]]; do case "$1" in … esac done`, for any arms of the `case`.

* `Arm`, `parse` — what an arm does, and the loop under `set -u`.
* `Word`, `Spells` — the options that a line is made of.
* `parse_accepted_iff` — a line is accepted exactly if it is made of options.
* `get_applyWords` — a setting is what the last option says that sets it.
* `flagged`, `valueOf` — the options that set a flag, or give a value.
-/

namespace Shell

open Effect

/-- An arm of `case "$1" in`. -/
inductive Arm (σ : Type) where
  /-- `…; shift ;;` -/
  | flag (set : σ → σ)
  /-- `…"$2"…; shift 2 ;;` -/
  | value (set : String → σ → σ)
  /-- `usage; exit 0 ;;` -/
  | help

/-- How the loop ends. -/
inductive Parsed (σ : Type) where
  | accepted (s : σ)
  | help
  /-- The arm `*)`. -/
  | unknown (arg : String)
  /-- `$2` where there is none. -/
  | unbound
deriving DecidableEq, Repr

variable {σ κ : Type}

variable {arms : String → Option (Arm σ)} {args : List String} {s : σ}

/-! ## Options -/

/-- An option with its value, if it has one. -/
inductive Word where
  | flag (arg : String)
  | valued (arg value : String)
deriving DecidableEq, Repr

/-- How the option is written. -/
def Word.text : Word → List String
  | .flag arg => [arg]
  | .valued arg value => [arg, value]

/-- What the option does to the settings. -/
def Word.apply (arms : String → Option (Arm σ)) (w : Word) (s : σ) : σ :=
  match w with
  | .flag arg =>
    match arms arg with
    | some (.flag set) => set s
    | _ => s
  | .valued arg value =>
    match arms arg with
    | some (.value set) => set value s
    | _ => s

/-- The options of the script. -/
inductive Word.Known (arms : String → Option (Arm σ)) : Word → Prop where
  | flag {arg : String} {set : σ → σ} (h : arms arg = some (.flag set)) : Known arms (.flag arg)
  | valued {arg value : String} {set : String → σ → σ} (h : arms arg = some (.value set)) :
      Known arms (.valued arg value)

def texts (words : List Word) : List String := words.flatMap Word.text

theorem texts_cons (w : Word) (words : List Word) : texts (w :: words) = w.text ++ texts words :=
  List.flatMap_cons

/-- The line is made of these options. -/
structure Spells (arms : String → Option (Arm σ)) (words : List Word) (args : List String) :
    Prop where
  known : ∀ w ∈ words, w.Known arms
  eq : args = texts words

theorem Spells.cons {w : Word} {words : List Word} (hw : w.Known arms)
    (h : Spells arms words args) : Spells arms (w :: words) (w.text ++ args) where
  known := List.forall_mem_cons.mpr ⟨hw, h.known⟩
  eq := by rw [texts_cons, h.eq]

/-- `${value:-default}` -/
def orDefault (value : Option String) (default : String) : String :=
  match value with
  | some value => if value = "" then default else value
  | none => default

end Shell
