import MarvellW8897.Effect.Script
import MarvellW8897.Scripts.Cleanup
import MarvellW8897.Scripts.Counters
import MarvellW8897.Scripts.UpdateConfig

/-!
# `deploy_oc_test.sh`

The script under `set -euo pipefail`: the builds, the EFI partition, the copy of the kext and the
change of the config, in their order. A command that fails ends it, unless its status is looked at.
Lines that only print are left out, and the texts of `die`.

* `Command`, `Op` — what the script asks of the system.
* `Stop` — why it can end early.
* `prepare`, `install`, `finish`, `deploy` — the steps 1 to 7, 8 and 9, 10 and 11, and all of them.
-/

namespace MarvellW8897

namespace Scripts

namespace Deploy

open Effect Plist Shell

/-! ## Settings and paths -/

/-- The first argument, and the variables of the environment. -/
structure Settings where
  efiDisk : String
  repo : Shell.Path
  syncRef : String
  enableTestSip : String
  doBless : String
  autoRepairEfi : String
  quietBuild : String
  unmountAfter : String
  failOnD : String

def kextName : String := "MarvellW8897Kext.kext"
def kextExec : String := "MarvellW8897Kext"

def Settings.buildDir (s : Settings) : Shell.Path := s.repo ++ ["out"]
def Settings.kextSrc (s : Settings) : Shell.Path := s.buildDir ++ ["Debug", kextName]
def Settings.probeSrc (s : Settings) : Shell.Path := s.repo ++ ["local-test", "marvell_probe.cpp"]
def Settings.probeBin (s : Settings) : Shell.Path := s.repo ++ ["local-test", "marvell_probe"]

def Settings.traceScript (s : Settings) : Shell.Path :=
  s.repo ++ ["scripts", "trace_marvell_sources.sh"]

def Settings.inspectScript (s : Settings) : Shell.Path :=
  s.repo ++ ["scripts", "inspect_marvell_history.sh"]

def ocDir (efiMount : Shell.Path) : Shell.Path := efiMount ++ ["EFI", "OC"]
def config (efiMount : Shell.Path) : Shell.Path := ocDir efiMount ++ ["config.plist"]
def kexts (efiMount : Shell.Path) : Shell.Path := ocDir efiMount ++ ["Kexts"]
def kextDst (efiMount : Shell.Path) : Shell.Path := kexts efiMount ++ [kextName]

/-- The property list and the executable in a kext. -/
def infoPlist : Shell.Path := ["Contents", "Info.plist"]
def executable : Shell.Path := ["Contents", "MacOS", kextExec]

/-- The mountpoint of `mount_msdos`. -/
def fallbackMount : Shell.Path := ["Volumes", "EFI"]

/-- The keys that a copy is compared by. -/
def comparedKeys : List String :=
  ["CFBundleIdentifier", "CFBundleExecutable", "CFBundleVersion", "OSBundleCompatibleVersion"]

/-! ## What is asked of the system -/

/-- Commands, of which the script sees the status. -/
inductive Command where
  | commandV (name : String)
  /-- `[[ -d path ]]` -/
  | isDirectory (path : Shell.Path)
  /-- `[[ -f path ]]` -/
  | isFile (path : Shell.Path)
  /-- `[[ -x path ]]` -/
  | isExecutable (path : Shell.Path)
  /-- `[[ -e device ]]` -/
  | isDevice (device : String)
  | cd (path : Shell.Path)
  | gitFetch
  | gitReset (ref : String)
  | shell (command : Shell.Command)
  | xcodebuild
  | clang
  | diskutilMount (disk : String)
  | unmountForce (disk : String)
  | fsckMsdos (device : String)
  | umount (path : Shell.Path)
  | mountMsdos (disk : String) (path : Shell.Path)
  | sync
  /-- `maybe_print_uuid`, with `sed`. -/
  | printUuid (path : Shell.Path)
  | updateConfig (cfg : Shell.Path) (enableTestSip : String)
  | plutilLint (cfg : Shell.Path)
  /-- `mount | grep`. -/
  | isMounted (path : Shell.Path)
  | inspectStrictUsers
  | inspectStrictKmFail
  | trace (efiMount : Shell.Path)
  | bless (path : Shell.Path)
  | diskutilUnmount (path : Shell.Path)
deriving DecidableEq, Repr

/-- Commands, and those of which the script reads the output. -/
inductive Op where
  | run (command : Command)
  /-- `diskutil list -plist`, as `plistlib` loads it. -/
  | diskutilList
  /-- `resolve_mountpoint`. -/
  | mountPoint (disk : String)
  /-- `plist_read`. -/
  | plistRead (path : Shell.Path) (key : String)
  /-- `sha256_file`. -/
  | sha256 (path : Shell.Path)
  /-- `count_marvell_kernel_add_entries`. -/
  | countEntries (cfg : Shell.Path)

/-- The answers; `none` for an output that is not there. -/
def Op.Resp : Op → Type
  | run _ => Bool
  | diskutilList => Option Plist
  | mountPoint _ => Option Shell.Path
  | plistRead _ _ | sha256 _ => Option String
  | countEntries _ => Option Nat

/-- Why the script ends early. -/
inductive Stop where
  /-- A command failed, and `set -e` is on. -/
  | failed (command : Command)
  /-- `resolve_efi_disk` or `sha256_file` failed, and `set -e` is on. -/
  | noOutput
  | commandMissing (name : String)
  | repoMissing (path : Shell.Path)
  | traceScriptMissing (path : Shell.Path)
  | inspectScriptMissing (path : Shell.Path)
  | noEfiDisk
  | buildFailed
  | kextMissing (path : Shell.Path)
  | probeSourceMissing (path : Shell.Path)
  | probeBuildFailed
  | probeMissing (path : Shell.Path)
  | mountFailed
  | fallbackMountMissing
  | mountMissing (path : Shell.Path)
  | ocDirMissing (path : Shell.Path)
  | configMissing (path : Shell.Path)
  | sourcePlistMissing (path : Shell.Path)
  | targetPlistMissing (path : Shell.Path)
  | sourceExecMissing (path : Shell.Path)
  | targetExecMissing (path : Shell.Path)
  | sourceKeyUnread (key : String)
  | targetKeyUnread (key : String)
  | plistMismatch (key : String)
  | hashMismatch
  | lintFailed
  | deployedPlistMissing (path : Shell.Path)
  | countInconclusive (path : Shell.Path)
  | entryMissing
  | mountInactive

abbrev DeployM := Script Op Op.Resp Stop

abbrev DeployEvent := Event Op Op.Resp

abbrev ask (op : Op) : DeployM op.Resp := Script.ask op

def run (command : Command) : DeployM Bool := ask (.run command)

/-- `command || die`. -/
def check (command : Command) (reason : Stop) : DeployM Unit := do
  if !(← run command) then
    Script.stop reason

/-- A command under `set -e`. -/
def must (command : Command) : DeployM Unit := check command (.failed command)

/-! ## The steps 1 to 7 -/

def needCmds : DeployM Unit :=
  ["git", "diskutil", "mount_msdos", "xcodebuild", "clang++", "python3", "plutil", "fsck_msdos",
    "shasum"].forM fun name => check (.commandV name) (.commandMissing name)

def checkRepo (s : Settings) : DeployM Unit := do
  check (.isDirectory (s.repo ++ [".git"])) (.repoMissing s.repo)
  must (.cd s.repo)
  check (.isExecutable s.traceScript) (.traceScriptMissing s.traceScript)
  check (.isExecutable s.inspectScript) (.inspectScriptMissing s.inspectScript)

def syncRepo (s : Settings) : DeployM Unit := do
  if s.syncRef != "" then
    must .gitFetch
    must (.gitReset s.syncRef)

/-- The inner loop of `resolve_efi_disk`. -/
def firstEfiPart (py : PyText) : List Plist → Except PyError (Option String)
  | [] => return none
  | part :: parts => do
    match ← part.get "Content" with
    | some (.string "EFI") =>
      match ← part.get "DeviceIdentifier" with
      | some identifier =>
        if identifier.truthy then return some (py.str identifier) else firstEfiPart py parts
      | none => firstEfiPart py parts
    | _ => firstEfiPart py parts

/-- The outer loop. -/
def firstEfiDisk (py : PyText) : List Plist → Except PyError (Option String)
  | [] => return none
  | disk :: disks => do
    let parts ← (((← disk.get "Partitions").getD (.array [])).elements)
    match ← firstEfiPart py parts with
    | some identifier => return some identifier
    | none => firstEfiDisk py disks

/-- What the loops of `resolve_efi_disk` find in the list. -/
def efiPartition (py : PyText) (pl : Plist) : Except PyError (Option String) := do
  let disks ← (((← pl.get "AllDisksAndPartitions").getD (.array [])).elements)
  firstEfiDisk py disks

def resolveEfiDisk (py : PyText) (requested : String) : DeployM String := do
  if requested != "" then
    return requested
  else
    let listed : Option Plist ← ask .diskutilList
    match listed with
    | none => Script.stop .noOutput
    | some pl =>
      match efiPartition py pl with
      | .ok (some identifier) => return identifier
      | _ => Script.stop .noOutput

def chooseDisk (py : PyText) (s : Settings) : DeployM String := do
  let efiDisk ← resolveEfiDisk py s.efiDisk
  if efiDisk == "" then
    Script.stop .noEfiDisk
  else
    return efiDisk

def runBuild (s : Settings) : DeployM Unit := do
  must (.shell (.mkdirP s.buildDir))
  check .xcodebuild (if s.quietBuild == "1" then .buildFailed else .failed .xcodebuild)

def buildKext (s : Settings) : DeployM Unit := do
  must (.shell (.removeR s.buildDir))
  must (.shell (.mkdirP s.buildDir))
  runBuild s
  check (.isDirectory s.kextSrc) (.kextMissing s.kextSrc)

def buildProbe (s : Settings) : DeployM Unit := do
  check (.isFile s.probeSrc) (.probeSourceMissing s.probeSrc)
  check .clang (if s.quietBuild == "1" then .probeBuildFailed else .failed .clang)
  check (.isExecutable s.probeBin) (.probeMissing s.probeBin)

/-- The part of `mount_efi` after `diskutil mount`. -/
def mountFallback (s : Settings) (disk rawDev : String) : DeployM Shell.Path := do
  let _ ← run (.unmountForce disk)
  -- in `$(mount_efi ..)` errors do not end the script, until `set -e` after `fsck_msdos`
  if s.autoRepairEfi == "1" then
    let _ ← run (.fsckMsdos rawDev)
    must (.shell (.mkdirP fallbackMount))
  else
    let _ ← run (.shell (.mkdirP fallbackMount))
  let _ ← run (.umount fallbackMount)
  check (.mountMsdos disk fallbackMount) .mountFailed
  check (.isDirectory fallbackMount) .fallbackMountMissing
  return fallbackMount

def mountEfi (s : Settings) (disk : String) : DeployM Shell.Path := do
  let raw ← run (.isDevice ("/dev/r" ++ disk))
  let rawDev := if raw then "/dev/r" ++ disk else "/dev/" ++ disk
  let resolved : Option Shell.Path ← ask (.mountPoint disk)
  match resolved with
  | some resolved => return resolved
  | none =>
    if ← run (.diskutilMount disk) then
      let resolved : Option Shell.Path ← ask (.mountPoint disk)
      match resolved with
      | some resolved => return resolved
      | none => mountFallback s disk rawDev
    else
      mountFallback s disk rawDev

def checkMount (efiMount : Shell.Path) : DeployM Unit := do
  check (.isDirectory efiMount) (.mountMissing efiMount)
  check (.isDirectory (ocDir efiMount)) (.ocDirMissing (ocDir efiMount))
  check (.isFile (config efiMount)) (.configMissing (config efiMount))

def prepare (py : PyText) (s : Settings) : DeployM Shell.Path := do
  needCmds
  checkRepo s
  syncRepo s
  let efiDisk ← chooseDisk py s
  buildKext s
  buildProbe s
  let efiMount ← mountEfi s efiDisk
  checkMount efiMount
  return efiMount

/-! ## The steps 8 and 9 -/

/-- One turn of the loop in `verify_deploy_copy`. -/
def compareKey (srcPlist dstPlist : Shell.Path) (key : String) : DeployM Unit := do
  let srcValue : Option String ← ask (.plistRead srcPlist key)
  match srcValue with
  | none => Script.stop (.sourceKeyUnread key)
  | some srcValue =>
    let dstValue : Option String ← ask (.plistRead dstPlist key)
    match dstValue with
    | none => Script.stop (.targetKeyUnread key)
    | some dstValue =>
      if srcValue != dstValue then
        Script.stop (.plistMismatch key)

/-- The comparison of the two hashes. -/
def compareHashes (srcExec dstExec : Shell.Path) : DeployM Unit := do
  let srcHash : Option String ← ask (.sha256 srcExec)
  match srcHash with
  | none => Script.stop .noOutput
  | some srcHash =>
    let dstHash : Option String ← ask (.sha256 dstExec)
    match dstHash with
    | none => Script.stop .noOutput
    | some dstHash =>
      if srcHash != dstHash then
        Script.stop .hashMismatch

def verifyDeployCopy (srcKext dstKext : Shell.Path) : DeployM Unit := do
  check (.isFile (srcKext ++ infoPlist)) (.sourcePlistMissing (srcKext ++ infoPlist))
  check (.isFile (dstKext ++ infoPlist)) (.targetPlistMissing (dstKext ++ infoPlist))
  check (.isExecutable (srcKext ++ executable)) (.sourceExecMissing (srcKext ++ executable))
  check (.isExecutable (dstKext ++ executable)) (.targetExecMissing (dstKext ++ executable))
  comparedKeys.forM (compareKey (srcKext ++ infoPlist) (dstKext ++ infoPlist))
  compareHashes (srcKext ++ executable) (dstKext ++ executable)
  must (.printUuid (srcKext ++ executable))
  must (.printUuid (dstKext ++ executable))

def copyKext (s : Settings) (efiMount : Shell.Path) : DeployM Unit := do
  must (.shell (.mkdirP (kexts efiMount)))
  must (.shell (.removeR (kextDst efiMount)))
  must (.shell (.copyR s.kextSrc (kextDst efiMount)))
  must .sync
  verifyDeployCopy s.kextSrc (kextDst efiMount)

/-- `MARVELL_OC_COUNT`, when it is conclusive and more than 0. -/
def countMarvell (cfg : Shell.Path) : DeployM Nat := do
  let count : Option Nat ← ask (.countEntries cfg)
  match count with
  | none => Script.stop (.countInconclusive cfg)
  | some count => if count ≤ 0 then Script.stop .entryMissing else return count

def changeConfig (s : Settings) (efiMount : Shell.Path) : DeployM Nat := do
  must (.updateConfig (config efiMount) s.enableTestSip)
  check (.plutilLint (config efiMount)) .lintFailed
  check (.isFile (kextDst efiMount ++ infoPlist))
    (.deployedPlistMissing (kextDst efiMount ++ infoPlist))
  countMarvell (config efiMount)

def install (s : Settings) (efiMount : Shell.Path) : DeployM Nat := do
  copyKext s efiMount
  changeConfig s efiMount

/-! ## The steps 10 and 11 -/

def diagnose (s : Settings) (efiMount : Shell.Path) : DeployM Unit := do
  check (.isMounted efiMount) .mountInactive
  must .inspectStrictUsers
  if s.failOnD == "1" then
    must .inspectStrictKmFail
  must (.trace efiMount)

def blessEfi (s : Settings) (efiMount : Shell.Path) : DeployM Unit := do
  if s.doBless == "1" then
    must (.bless efiMount)

def unmountEfi (s : Settings) (efiMount : Shell.Path) : DeployM Unit := do
  if s.unmountAfter == "1" then
    let _ ← run (.diskutilUnmount efiMount)

def finish (s : Settings) (efiMount : Shell.Path) : DeployM Unit := do
  diagnose s efiMount
  blessEfi s efiMount
  unmountEfi s efiMount

/-- The script; it ends with the mountpoint and the number of entries. -/
def deploy (py : PyText) (s : Settings) : DeployM (Shell.Path × Nat) := do
  let efiMount ← prepare py s
  let count ← install s efiMount
  finish s efiMount
  return (efiMount, count)

end Deploy

end Scripts

end MarvellW8897
