import MarvellW8897.Plist.Value

/-!
# The two counters of OpenCore entries

`count_marvell_kernel_add_entries` of `scripts/deploy_oc_test.sh` and `count_oc_entries` of
`scripts/trace_marvell_sources.sh`, on a config that `plistlib` has loaded. The texts that `str` and
`str.lower` give are a parameter, `PyText`.
-/

namespace MarvellW8897

namespace Scripts

open Plist

/-- `str` of a value, and `str.lower`. -/
structure PyText where
  str : Plist → String
  lower : String → String
  /-- `str` of a string is the string. -/
  str_string : ∀ s, str (.string s) = s
  /-- A stretch of ASCII characters is lowered character by character, wherever it stands. -/
  lower_ascii : ∀ before text after : String, (∀ c ∈ text.toList, c.toNat < 128) →
    text.toList.map Char.toLower <:+: (lower (before ++ text ++ after)).toList

/-- `(((pl or {}).get("Kernel") or {}).get("Add") or [])`. -/
def kernelAdd (pl : Plist) : Except PyError Plist := do
  let kernel ← (orDefault (some pl) (.dict [])).get "Kernel"
  let add ← (orDefault kernel (.dict [])).get "Add"
  return orDefault add (.array [])

/-- What the loop of a counter counts: dictionaries that it accepts. -/
def counted (accepts : List (String × Plist) → Bool) : Plist → Bool
  | .dict entries => accepts entries
  | _ => false

/-- The loop of both counters. -/
def countEntries (accepts : List (String × Plist) → Bool) (pl : Plist) : Except PyError Nat := do
  let adds ← kernelAdd pl
  let elements ← adds.elements
  return elements.countP (counted accepts)

/-- `str(e.get(key, ""))`. -/
def field (py : PyText) (entries : List (String × Plist)) (key : String) : String :=
  py.str ((entries.lookup key).getD (.string ""))

/-- The four fields, with blanks between them. -/
def joined (py : PyText) (entries : List (String × Plist)) : String :=
  " ".intercalate [field py entries "BundlePath", field py entries "ExecutablePath",
    field py entries "PlistPath", field py entries "Comment"]

/-- The test of `count_marvell_kernel_add_entries`. -/
def isMarvellEntry (py : PyText) (entries : List (String × Plist)) : Bool :=
  let joined := py.lower (joined py entries)
  isSubstring "marvellw8897" joined || isSubstring "brainworks.driver.marvellw8897" joined ||
    isSubstring "brainworks.marvellw8897" joined

/-- The test of `count_oc_entries`. -/
def isOcEntry (py : PyText) (entries : List (String × Plist)) : Bool :=
  let joined := joined py entries
  isSubstring "MarvellW8897Kext" joined || isSubstring "brainworks.driver.MarvellW8897" joined ||
    isSubstring "brainworks.MarvellW8897" joined

def countMarvellKernelAddEntries (py : PyText) (pl : Plist) : Except PyError Nat :=
  countEntries (isMarvellEntry py) pl

def countOcEntries (py : PyText) (pl : Plist) : Except PyError Nat :=
  countEntries (isOcEntry py) pl

end Scripts

end MarvellW8897
