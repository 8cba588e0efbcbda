import MarvellW8897.Effect.Program
import MarvellW8897.Plist.Value

/-!
# `update_config`

The Python part of `update_config` in `scripts/deploy_oc_test.sh`: the change it makes to the loaded
config, and the file operations around it. Any of them can raise an exception, and a copy or a dump
that does leaves some content behind.

* `updatePl` — what happens to the value, between `plistlib.load` and `plistlib.dump`.
* `updateConfig` — the whole script, with the backup that it makes first.
* `Disk`, `diskAfter` — the two files, and what the operations do to them.
-/

namespace MarvellW8897

namespace Scripts

open Dictionary Effect Plist

/-! ## The value -/

/-- The managed keys, in their order. -/
def entry (kextName kextExec : String) : List (String × Plist) :=
  [("Arch", .string "x86_64"), ("BundlePath", .string kextName),
    ("Comment", .string "Marvell W8897 bring-up"), ("Enabled", .boolean true),
    ("ExecutablePath", .string ("Contents/MacOS/" ++ kextExec)), ("MaxKernel", .string ""),
    ("MinKernel", .string ""), ("PlistPath", .string "Contents/Info.plist")]

/-- `e.get("BundlePath") == kext_name`. -/
def hasBundlePath (kextName : String) (e : List (String × Plist)) : Bool :=
  match e.lookup "BundlePath" with
  | some (.string s) => s == kextName
  | _ => false

/-- The loop over the entries, and whether it replaced one. -/
def replaceFirst (kextName kextExec : String) :
    List Plist → Except PyError (List Plist × Bool)
  | [] => .ok ([], false)
  | .dict e :: adds =>
    if hasBundlePath kextName e then
      let merged := update (entry kextName kextExec) e
      .ok (.dict merged :: adds, true)
    else do
      let (adds, replaced) ← replaceFirst kextName kextExec adds
      return (.dict e :: adds, replaced)
  | _ :: _ => .error .attributeError  -- `e.get` of what is no dictionary

/-- What happens to `adds`. -/
def updateAdds (kextName kextExec : String) : Plist → Except PyError Plist
  | .array adds => do
    let (adds, replaced) ← replaceFirst kextName kextExec adds
    if replaced then
      return .array adds
    else
      append (.dict (entry kextName kextExec)) (.array adds)
  -- the elements of these have no `get`, and without elements they have no `append`
  | .string _ | .dict _ | .data _ => .error .attributeError
  | _ => .error .typeError

def guid : String := "7C436110-AB2A-4BBB-A880-FE41995C9F82"

/-- What happens to `add`. -/
def updateAdd : Plist → Except PyError Plist :=
  inDefault guid (.dict []) (setItem "csr-active-config" (.data [0x03, 0x00, 0x00, 0x00]))

/-- What happens to `del_guid`. -/
def updateDelGuid (delGuid : Plist) : Except PyError Plist := do
  if ← delGuid.contains "csr-active-config" then
    return delGuid
  else
    append (.string "csr-active-config") delGuid

/-- What happens to `delete`. -/
def updateDelete : Plist → Except PyError Plist := inDefault guid (.array []) updateDelGuid

/-- What happens to `nvram`. -/
def updateNvram (nvram : Plist) : Except PyError Plist :=
  inDefault "Add" (.dict []) updateAdd nvram >>= inDefault "Delete" (.dict []) updateDelete

/-- What happens to `pl`. -/
def updatePl (kextName kextExec enableTestSip : String) (pl : Plist) : Except PyError Plist := do
  let pl ← inDefault "Kernel" (.dict [])
    (inDefault "Add" (.array []) (updateAdds kextName kextExec)) pl
  if enableTestSip == "1" then
    inDefault "NVRAM" (.dict []) updateNvram pl
  else
    return pl

/-! ## The files -/

variable {Content : Type}

/-- The operations on the files, where `cfg` is the config and `backup` its copy. -/
inductive FileOp (Content : Type) where
  /-- `os.path.samefile(cfg, backup)`, in `shutil.copyfile`. -/
  | sameFile
  /-- `open(cfg, "rb")`, in `shutil.copyfile`. -/
  | openSource
  /-- `open(backup, "wb")`, in `shutil.copyfile`. -/
  | openBackup
  | copyData
  | copyStat
  /-- `cfg.open("rb")`, and reading it to the end. -/
  | readConfig
  /-- `cfg.open("wb")`. -/
  | openConfig
  /-- `plistlib.dump` of a value that it can write, and closing the file. -/
  | write (content : Content)
  /-- `plistlib.dump` of a value that it cannot write to the end. -/
  | writePart
  | print

/-- The answers: `true` or `none` for an operation that raises nothing. -/
def FileOp.Resp : FileOp Content → Type
  | sameFile | openSource | openBackup | copyStat | openConfig | print => Bool
  | copyData | write _ => Option Content  -- what an interrupted copy or write leaves
  | readConfig => Option Content  -- what was read
  | writePart => Content

abbrev FileM (Content : Type) := Program (FileOp Content) FileOp.Resp

abbrev ask (op : FileOp Content) : FileM Content op.Resp := Program.ask op

abbrev FileEvent (Content : Type) := Event (FileOp Content) FileOp.Resp

/-- `plistlib`, and the content of a file that has just been opened for writing. -/
structure PlistLib (Content : Type) where
  empty : Content
  load : Content → Option Plist
  dump : Plist → Option Content
  load_dump : ∀ pl content, dump pl = some content → load content = some pl

/-- `shutil.copy2(cfg, backup)`, and whether it returns. -/
def copy2 : FileM Content Bool := do
  let same : Bool ← ask .sameFile
  if same then
    return false  -- `SameFileError`
  let opened : Bool ← ask .openSource
  if !opened then
    return false
  let opened : Bool ← ask .openBackup
  if !opened then
    return false
  let left : Option Content ← ask .copyData
  if left.isSome then
    return false
  ask .copyStat

/-- Dumping the value to the config, and the two lines printed. -/
def dumpConfig (lib : PlistLib Content) (pl : Plist) : FileM Content Bool := do
  let opened : Bool ← ask .openConfig
  if !opened then
    return false
  match lib.dump pl with
  | none =>
    let _ ← ask .writePart
    return false
  | some content =>
    let left : Option Content ← ask (.write content)
    if left.isSome then
      return false
    let printed : Bool ← ask .print
    if !printed then
      return false
    ask .print

/-- What the script does with what it has read. -/
def rewriteConfig (lib : PlistLib Content) (kextName kextExec enableTestSip : String)
    (content : Option Content) : FileM Content Bool :=
  match content.bind lib.load with
  | none => return false
  | some pl =>
    match updatePl kextName kextExec enableTestSip pl with
    | .error _ => return false
    | .ok pl => dumpConfig lib pl

/-- The whole script, and whether it comes to its end. -/
def updateConfig (lib : PlistLib Content) (kextName kextExec enableTestSip : String) :
    FileM Content Bool := do
  let copied ← copy2
  if !copied then
    return false
  let content : Option Content ← ask .readConfig
  rewriteConfig lib kextName kextExec enableTestSip content

/-! ## What the operations do -/

/-- The content of the config, and of the file under the name of the backup. -/
structure Disk (Content : Type) where
  config : Content
  backup : Option Content

/-- What one operation does to the files. -/
def diskStep (lib : PlistLib Content) (disk : Disk Content) (e : FileEvent Content) :
    Disk Content :=
  match e with
  | ⟨.openBackup, opened⟩ =>
    if (show Bool from opened) then { disk with backup := some lib.empty } else disk
  | ⟨.copyData, left⟩ =>
    { disk with backup := some (Option.getD (show Option Content from left) disk.config) }
  | ⟨.openConfig, opened⟩ =>
    if (show Bool from opened) then { disk with config := lib.empty } else disk
  | ⟨.write content, left⟩ =>
    { disk with config := Option.getD (show Option Content from left) content }
  | ⟨.writePart, left⟩ => { disk with config := left }
  | _ => disk

def diskAfter (lib : PlistLib Content) (disk : Disk Content) (t : List (FileEvent Content)) :
    Disk Content :=
  t.foldl (diskStep lib) disk

/-- What is read from the config is what is in it. -/
def ReadsDisk (lib : PlistLib Content) : Disk Content → List (FileEvent Content) → Prop
  | _, [] => True
  | disk, e :: t =>
    (∀ content : Content, e = ⟨.readConfig, some content⟩ → content = disk.config) ∧
      ReadsDisk lib (diskStep lib disk e) t

end Scripts

end MarvellW8897
