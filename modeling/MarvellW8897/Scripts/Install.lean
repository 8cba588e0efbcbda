import MarvellW8897.Scripts.Deploy

/-!
# What the steps 8 and 9 of a deploy do to the files

The kext is copied to the EFI partition and the config changed there. The tests and readings of the
script tell something about the tree of files; the commands and `update_config` change it.

* `Tools` — what `plistlib`, `print` and `shasum` make of the contents of files.
* `Observes` — the answers that a tree allows; a link may lead anywhere, and a reading may fail.
* `Rewrites` — a run of `update_config` in the tree.
* `InstallStep` — one request, with its answer.
-/

namespace MarvellW8897

namespace Scripts

namespace Deploy

open Effect Plist Shell

variable {Content : Type}

/-- `plistlib`, and the texts that `print` and `shasum` give. -/
structure Tools (Content : Type) where
  lib : PlistLib Content
  py : PyText
  printed : Plist → String
  sha256 : Content → String

/-- `key.split(":")` -/
def keyParts (key : String) : List String := (key.toList.splitOn ':').map String.ofList

/-- What `plist_read` prints of a file. -/
def plistRead (tools : Tools Content) (key : String) (content : Content) : Option String := do
  let pl ← tools.lib.load content
  let value ← atPath (keyParts key) pl
  return tools.printed value

/-- What `count_marvell_kernel_add_entries` prints of a file, if it is a number. -/
def countMarvellEntries (tools : Tools Content) (content : Content) : Option Nat := do
  let pl ← tools.lib.load content
  (countMarvellKernelAddEntries tools.py pl).toOption

/-- What a test says of what stands at its path. -/
def Tests (holds : Option (Node Content) → Bool) (node : Option (Node Content)) (found : Bool) :
    Prop :=
  (∃ target, node = some (.link target)) ∨ found = holds node

/-- What a reading gives of the file at its path, unless it fails. -/
def ReadsFile {α : Type} (value : Content → Option α) (node : Option (Node Content))
    (result : Option α) : Prop :=
  (∃ target, node = some (.link target)) ∨ result = none ∨
    ∃ content, node = some (.file content) ∧ result = value content

def isRegular : Option (Node Content) → Bool
  | some (.file _) => true
  | _ => false

/-- The answers to the requests that change nothing. -/
def Observes (tools : Tools Content) (tree : FileTree Content) : (op : Op) → op.Resp → Prop
  | .run (.isFile path), found => Tests isRegular (tree.node path) found
  | .run (.isExecutable path), found => tree.node path = none → found = false
  | .plistRead path key, result => ReadsFile (plistRead tools key) (tree.node path) result
  | .sha256 path, result => ReadsFile (fun content => some (tools.sha256 content)) (tree.node path)
      result
  | .countEntries cfg, result => ReadsFile (countMarvellEntries tools) (tree.node cfg) result
  | .run .sync, _ | .run (.printUuid _), _ | .run (.plutilLint _), _ => True
  | _, _ => False

/-- The file that `update_config` copies the config to. -/
def backup (efiMount : Shell.Path) (stamp : String) : Shell.Path :=
  ocDir efiMount ++ ["config.plist.bak-" ++ stamp]

/-- The content of the file at a path. -/
def contentAt (tree : FileTree Content) (path : Shell.Path) : Option Content :=
  match tree.node path with
  | some (.file content) => some content
  | _ => none

/-- A run of `update_config` on the config at `efiMount`, and whether it came to its end. -/
inductive Rewrites (tools : Tools Content) (enableTestSip : String) (efiMount : Shell.Path) :
    FileTree Content → Bool → FileTree Content → Prop where
  | intro {tree tree' : FileTree Content} (stamp : String) {content : Content}
      {t : List (FileEvent Content)} {completed : Bool} {disk : Disk Content}
      (hconfig : tree.node (config efiMount) = some (.file content))
      (hrun : Runs (updateConfig tools.lib kextName kextExec enableTestSip) t completed)
      (hreads : ReadsDisk tools.lib ⟨content, contentAt tree (backup efiMount stamp)⟩ t)
      (hdisk : diskAfter tools.lib ⟨content, contentAt tree (backup efiMount stamp)⟩ t = disk)
      (hnew : tree'.node (config efiMount) = some (.file disk.config))
      (hbackup : contentAt tree' (backup efiMount stamp) = disk.backup)
      (hother : ∀ q, q ≠ config efiMount → q ≠ backup efiMount stamp →
        tree'.node q = tree.node q) :
      Rewrites tools enableTestSip efiMount tree completed tree'

/-- One request of the steps 8 and 9. -/
inductive InstallStep (tools : Tools Content) :
    FileTree Content → DeployEvent → FileTree Content → Prop where
  | shell {tree tree' : FileTree Content} {command : Shell.Command} {ok : Bool}
      (h : Executes tree ⟨command, ok⟩ tree') :
      InstallStep tools tree ⟨.run (.shell command), ok⟩ tree'
  | updateConfig {tree tree' : FileTree Content} {efiMount : Shell.Path} {enableTestSip : String}
      {completed : Bool} (h : Rewrites tools enableTestSip efiMount tree completed tree') :
      InstallStep tools tree ⟨.run (.updateConfig (config efiMount) enableTestSip), completed⟩ tree'
  | observe {tree : FileTree Content} {op : Op} {r : op.Resp} (h : Observes tools tree op r) :
      InstallStep tools tree ⟨op, r⟩ tree

end Deploy

end Scripts

end MarvellW8897
