import MarvellW8897.Scripts.Cleanup
import MarvellW8897.Shell.Find
import MarvellW8897.Shell.Options

/-!
# The arguments and the candidates of `cleanup_marvell_auxkc.sh`

The four `find` commands and `awk`, whose output the script reads. No name holds a line break, so a
line is a path.

* `Collects` — a list of candidates that the tree can give.
* `Session` — a run with its settings: the backup root is made, the candidates are collected, and
  the rest.
* `Invocation` — a run with its arguments.
-/

namespace MarvellW8897

namespace Scripts

open Effect Shell

variable {File : Type}

def keManagement : Shell.Path := ["private", "var", "db", "KernelExtensionManagement"]

def kernelCollections : Shell.Path := ["private", "var", "db", "KernelCollections"]

def stagedExtensions : Shell.Path := ["Library", "StagedExtensions"]

theorem searched_eq : searched = [keManagement, kernelCollections, stagedExtensions] := rfl

/-- `-iname '*MarvellW8897*'` -/
def isMarvellName (p : Shell.Path) (_node : Node File) : Bool :=
  match p.getLast? with
  | none => false
  | some name =>
    Glob.accepts ((Glob.ofString "*MarvellW8897*").map Glob.toLower) (name.toList.map Char.toLower)

/-- `-type f -name 'com.apple.kcgen.instructions.plist'` -/
def isInstructionsPlist (p : Shell.Path) : Node File → Bool
  | .file _ => p.getLast? == some "com.apple.kcgen.instructions.plist"
  | _ => false

/-- `plutil -convert xml1 -o - "$ip" | grep -E "$MARVELL_PAT"`, as a test of the content. -/
def mentioned (mentions : File → Bool) (tree : FileTree File) (p : Shell.Path) : Bool :=
  match tree.node p with
  | some (.file content) => mentions content
  | _ => false

inductive Collects (tree : FileTree File) (readable : Shell.Path → Prop)
    (mentions : File → Bool) : List Shell.Path → Prop where
  | intro {marvell₁ marvell₂ marvell₃ plists : List Shell.Path}
      (h₁ : Finds tree readable isMarvellName keManagement marvell₁)
      (h₂ : Finds tree readable isMarvellName kernelCollections marvell₂)
      (h₃ : Finds tree readable isMarvellName stagedExtensions marvell₃)
      (h₄ : Finds tree readable isInstructionsPlist keManagement plists) :
      Collects tree readable mentions (firstOccurrences
        (marvell₁ ++ marvell₂ ++ marvell₃ ++ plists.filter (mentioned mentions tree)))

/-- A run of the script: the candidates are collected after the first command. -/
inductive Session (settings : Settings) (readable : Shell.Path → Prop) (mentions : File → Bool)
    (tree : FileTree File) : List ShellEvent → Report → FileTree File → Prop where
  | intro {e : ShellEvent} {t : List ShellEvent} {now tree' : FileTree File}
      {candidates : List Shell.Path} {report : Report}
      (hfirst : Executes tree e now) (hcollect : Collects now readable mentions candidates)
      (hrun : Runs (cleanup settings candidates) (e :: t) report)
      (hpath : Effect.Path Executes now t tree') :
      Session settings readable mentions tree (e :: t) report tree'

/-! ## Arguments -/

structure CleanupVariables where
  backupRoot : String
  doApply : Bool

/-- The variables, with the path that the text leads to and the time stamp of the run. -/
def CleanupVariables.settings (resolve : String → Shell.Path) (ts : String)
    (vars : CleanupVariables) : Settings where
  doApply := vars.doApply
  backupRoot := resolve vars.backupRoot
  ts := ts

end Scripts

end MarvellW8897
