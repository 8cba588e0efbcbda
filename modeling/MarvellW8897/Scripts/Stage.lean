import MarvellW8897.Scripts.Deploy
import MarvellW8897.Shell.Options
import MarvellW8897.Shell.Volume

/-!
# `stage_marvell_root_owned.sh`

The kext that was built is staged for validation, in a directory of the administrator. The tests are
made by the user who runs the script, the changes through `sudo`. What only prints is left out: the
reports about the bundles, and whether the one that is there differs from the source. So are the
texts and exit statuses of an early end.

* `Variables` — what the arguments of the script set.
* `Op` — what is asked of the system.
* `Stop` — why the script ends early.
* `script`, `stage` — the script, and what follows the loop over its arguments.
* `StageStep` — one request, on a volume that the user does not see everywhere.
-/

namespace MarvellW8897

namespace Scripts

namespace Stage

open Effect Shell

/-! ## Variables and arguments -/

structure Variables where
  srcKext : String
  stageBase : String
  destKext : String
  doApply : Bool

/-- The arms of `case "$1" in`. -/
def arms : String → Option (Arm Variables)
  | "--src-kext" => some (.value fun value vars => { vars with srcKext := value })
  | "--dest-kext" => some (.value fun value vars => { vars with destKext := value })
  | "--stage-base" => some (.value fun value vars => { vars with
      stageBase := value
      destKext := value ++ "/MarvellW8897Kext.kext" })
  | "--apply" => some (.flag fun vars => { vars with doApply := true })
  | "-h" | "--help" => some .help
  | _ => none

/-- The variables, with the paths that the texts lead to. -/
structure Settings where
  srcKext : Shell.Path
  destKext : Shell.Path
  doApply : Bool

def Variables.settings (resolve : String → Shell.Path) (vars : Variables) : Settings where
  srcKext := resolve vars.srcKext
  destKext := resolve vars.destKext
  doApply := vars.doApply

abbrev infoPlist : Shell.Path := Deploy.infoPlist
abbrev executable : Shell.Path := Deploy.executable

def rootWheel : String := "root:wheel"

/-! ## What is asked of the system -/

/-- Commands, of which the script sees the status. -/
inductive Command where
  | commandV (name : String)
  /-- `[[ -d path ]]` -/
  | isDirectory (path : Shell.Path)
  /-- `[[ -f path ]]` -/
  | isFile (path : Shell.Path)
  /-- `sudo` -/
  | runSudo (command : VolumeCommand)
deriving DecidableEq, Repr

inductive Op where
  | run (command : Command)
  /-- `sudo find path -type kind`; the commands that it executes come after it. -/
  | sudoFind (kind : Kind) (path : Shell.Path)
deriving DecidableEq, Repr

/-- The exit status, with what was found. -/
def Op.Resp : Op → Type
  | run _ => Bool
  | sudoFind _ _ => List Shell.Path × Bool

inductive Stop where
  | help
  | unknownArgument (arg : String)
  /-- `$2` is not set. -/
  | unbound
  /-- A command failed, and `set -e` is on. -/
  | failed (op : Op)
  | commandMissing (name : String)
  | sourceMissing (path : Shell.Path)
  | plistMissing (path : Shell.Path)
  | executableMissing (path : Shell.Path)
deriving DecidableEq, Repr

abbrev StageM := Script Op Op.Resp Stop

abbrev StageEvent := Event Op Op.Resp

abbrev ask (op : Op) : StageM op.Resp := Script.ask op

/-- `command || { …; exit; }` -/
def check (command : Command) (reason : Stop) : StageM Unit := do
  let ok : Bool ← ask (.run command)
  if !ok then
    Script.stop reason

/-- A command under `set -e`. -/
def sudoMust (command : VolumeCommand) : StageM Unit :=
  check (.runSudo command) (.failed (.run (.runSudo command)))

/-! ## The script -/

def needCmds : StageM Unit :=
  ["stat", "shasum", "sudo", "rsync"].forM fun name => check (.commandV name) (.commandMissing name)

def checkSource (s : Settings) : StageM Unit := do
  check (.isDirectory s.srcKext) (.sourceMissing s.srcKext)
  check (.isFile (s.srcKext ++ infoPlist)) (.plistMissing (s.srcKext ++ infoPlist))
  check (.isFile (s.srcKext ++ executable)) (.executableMissing (s.srcKext ++ executable))

/-- `-exec chmod mode`; `find` does not pass on a status of it. -/
def chmodEach (mode : Nat) (found : List Shell.Path) : StageM PUnit :=
  found.forM fun path => do
    let _ ← ask (.run (.runSudo (.chmod mode path)))

def findChmod (kind : Kind) (mode : Nat) (path : Shell.Path) : StageM Unit := do
  let found : List Shell.Path × Bool ← ask (.sudoFind kind path)
  chmodEach mode found.1
  if !found.2 then
    Script.stop (.failed (.sudoFind kind path))

def chmodExecutable (s : Settings) : StageM Unit := do
  let found : Bool ← ask (.run (.isFile (s.destKext ++ executable)))
  if found then
    sudoMust (.chmod 0o755 (s.destKext ++ executable))

/-- The branch of `--apply`. -/
def apply (s : Settings) : StageM Unit := do
  sudoMust (.mkdirP s.destKext.dropLast)
  sudoMust (.removeR s.destKext)
  sudoMust (.rsync s.srcKext s.destKext)
  sudoMust (.chownR rootWheel s.destKext)
  findChmod .directory 0o755 s.destKext
  findChmod .file 0o644 s.destKext
  chmodExecutable s

def stage (s : Settings) : StageM Unit := do
  needCmds
  checkSource s
  if s.doApply then
    apply s

variable {Content : Type}

/-- What a test says of a path: that of a link can be either, and what is not seen fails it. -/
def Tests (sees : Shell.Path → Bool) (tree : FileTree Content) (kind : Kind) (path : Shell.Path)
    (found : Bool) : Prop :=
  IsLink tree path ∨ found = (sees path && (tree.node path).any (kind.wanted path))

/-- One request. The user sees what stands at some of the paths. -/
inductive StageStep (sees : Shell.Path → Bool) :
    Volume Content → StageEvent → Volume Content → Prop where
  | commandV {v : Volume Content} {name : String} {found : Bool} :
      StageStep sees v ⟨.run (.commandV name), found⟩ v
  | isDirectory {v : Volume Content} {path : Shell.Path} {found : Bool}
      (h : Tests sees v.tree .directory path found) :
      StageStep sees v ⟨.run (.isDirectory path), found⟩ v
  | isFile {v : Volume Content} {path : Shell.Path} {found : Bool}
      (h : Tests sees v.tree .file path found) :
      StageStep sees v ⟨.run (.isFile path), found⟩ v
  | runSudo {v v' : Volume Content} {command : VolumeCommand} {ok : Bool}
      (h : VolumeStep v command ok v') : StageStep sees v ⟨.run (.runSudo command), ok⟩ v'
  | sudoFind {v : Volume Content} {kind : Kind} {path : Shell.Path}
      {found : List Shell.Path × Bool} (h : FindsKind v.tree kind path found) :
      StageStep sees v ⟨.sudoFind kind path, found⟩ v

end Stage

end Scripts

end MarvellW8897
