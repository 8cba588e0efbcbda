import MarvellW8897.Shell.Files
import MarvellW8897.Shell.Glob

/-!
# `cleanup_marvell_auxkc.sh`

The script from `mkdir -p "$BACKUP_ROOT"` on. The candidates are what the four `find` commands and
`awk` hand to it; the options, and the time stamp that `date` gives, are `Settings`.

* `isSafeRemove` — the patterns that tell the two kinds of candidates apart.
* `classify`, `applyRemovals`, `cleanup` — the loops and the script. Under `set -e` it stops at a
  command that fails.
-/

namespace MarvellW8897

namespace Scripts

open Effect Shell

structure Settings where
  doApply : Bool
  backupRoot : Shell.Path
  ts : String

/-- `$RUN_BACKUP` -/
def Settings.runBackup (settings : Settings) : Shell.Path := settings.backupRoot ++ [settings.ts]

/-- The directories that `find` searches. -/
def searched : List Shell.Path :=
  [["private", "var", "db", "KernelExtensionManagement"],
    ["private", "var", "db", "KernelCollections"], ["Library", "StagedExtensions"]]

/-- A path as it is written. -/
def text (path : Shell.Path) : List Char := path.flatMap fun name => '/' :: name.toList

/-- The patterns of the first branch of `case "$p" in`. -/
def safePatterns : List String :=
  ["*/KernelExtensionManagement/AuxKC/*/StashedExtensions/*MarvellW8897*",
    "*/Library/StagedExtensions/*MarvellW8897*"]

def isSafeRemove (p : Shell.Path) : Bool :=
  safePatterns.any fun pattern => Glob.accepts (Glob.ofString pattern) (text p)

/-- How a run ends. -/
inductive Outcome where
  | stopped (command : Command)
  | dryRun
  | nothingToRemove
  | finished
deriving DecidableEq, Repr

/-- The two lists, as they are printed, and the end of the run. -/
structure Report where
  safeRemove : List Shell.Path
  manualOnly : List Shell.Path
  outcome : Outcome
deriving DecidableEq, Repr

/-- The loop that sorts the candidates. -/
def classify : List Shell.Path → ShellM (List Shell.Path × List Shell.Path)
  | [] => return ([], [])
  | p :: candidates => do
    let found ← run (.exists p)
    let (safeRemove, manualOnly) ← classify candidates
    if !found then
      return (safeRemove, manualOnly)
    else if isSafeRemove p then
      return (p :: safeRemove, manualOnly)
    else
      return (safeRemove, p :: manualOnly)

/-- The loop that backs up and removes. -/
def applyRemovals (runBackup : Shell.Path) : List Shell.Path → ShellM Outcome
  | [] => return .finished
  | p :: safeRemove => do
    let found ← run (.exists p)
    if !found then
      applyRemovals runBackup safeRemove
    else
      let bkp := runBackup ++ p  -- `"$RUN_BACKUP/${p#/}"`
      let made ← run (.mkdirP bkp.dropLast)
      if !made then
        return .stopped (.mkdirP bkp.dropLast)
      let copied ← run (.copyR p bkp)
      if !copied then
        return .stopped (.copyR p bkp)
      let removed ← run (.removeR p)
      if !removed then
        return .stopped (.removeR p)
      applyRemovals runBackup safeRemove

/-- What follows the two lists. -/
def applyMode (settings : Settings) (safeRemove : List Shell.Path) : ShellM Outcome := do
  if !settings.doApply then
    return .dryRun
  if safeRemove.isEmpty then
    return .nothingToRemove
  let made ← run (.mkdirP settings.runBackup)
  if !made then
    return .stopped (.mkdirP settings.runBackup)
  applyRemovals settings.runBackup safeRemove

/-- The script. -/
def cleanup (settings : Settings) (candidates : List Shell.Path) : ShellM Report := do
  let made ← run (.mkdirP settings.backupRoot)
  if !made then
    return ⟨[], [], .stopped (.mkdirP settings.backupRoot)⟩
  let (safeRemove, manualOnly) ← classify candidates
  let outcome ← applyMode settings safeRemove
  return ⟨safeRemove, manualOnly, outcome⟩

end Scripts

end MarvellW8897
