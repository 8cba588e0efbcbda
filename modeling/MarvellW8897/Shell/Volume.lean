import MarvellW8897.Shell.Find

/-!
# Volumes and the commands of an administrator

A file tree with an owner and a mode for what stands in it, and what `mkdir -p`, `rm -rf`,
`rsync -a`, `chown -R`, `chmod` and `find` do there for a user who may do everything. Paths are
physical, but the last name of one may be a link.

* `VolumeStep` — one command, with its answer.
* `Volume.chownR`, `Volume.chmod` — the volumes that these commands leave when they succeed.
* `KeepsOutside`, `VolumeStep.keepsOutside` — what is outside of a path that a command works in.
-/

namespace Shell

open Effect

/-- The owner with the group, and the permission bits. -/
structure Attributes where
  owner : String
  mode : Nat
deriving DecidableEq, Repr

structure Volume (File : Type) where
  tree : FileTree File
  attributes : Path → Attributes

variable {File : Type} {v v' v'' : Volume File} {path q : Path}

def IsLink (tree : FileTree File) (path : Path) : Prop :=
  ∃ target, tree.node path = some (.link target)

/-- `-type d` and `-type f`. -/
inductive Kind where
  | directory
  | file
deriving DecidableEq, Repr

def Kind.wanted : Kind → Path → Node File → Bool
  | directory, _, .directory => true
  | file, _, .file _ => true
  | _, _, _ => false

inductive VolumeCommand where
  /-- `mkdir -p path` -/
  | mkdirP (path : Path)
  /-- `rm -rf path` -/
  | removeR (path : Path)
  /-- `rsync -a source/ target/` -/
  | rsync (source target : Path)
  /-- `chown -R owner path` -/
  | chownR (owner : String) (path : Path)
  | chmod (mode : Nat) (path : Path)
deriving DecidableEq, Repr

/-- Nothing has changed at a path. -/
def SameAt (v v' : Volume File) (q : Path) : Prop :=
  v'.tree.node q = v.tree.node q ∧ v'.attributes q = v.attributes q

/-- The command takes the first volume to the second, with this exit status. -/
inductive VolumeStep : Volume File → VolumeCommand → Bool → Volume File → Prop where
  | mkdirP {v v' : Volume File} {path : Path} {ok : Bool}
      (h : Executes v.tree ⟨.mkdirP path, ok⟩ v'.tree)
      (hkept : ∀ q, v.tree.node q ≠ none → v'.attributes q = v.attributes q) :
      VolumeStep v (.mkdirP path) ok v'
  | removeR {v v' : Volume File} {path : Path} {ok : Bool}
      (h : Executes v.tree ⟨.removeR path, ok⟩ v'.tree)
      (hkept : ∀ q, ¬ path <+: q → v'.attributes q = v.attributes q) :
      VolumeStep v (.removeR path) ok v'
  /-- The source is a directory or leads to one. -/
  | rsync {v v' : Volume File} {source target : Path}
      (hsource : v.tree.node source = some .directory ∨ IsLink v.tree source)
      (hcopy : v.tree.node source = some .directory → v.tree.node target = none →
        ¬ source <+: target →
        ∀ rest, v'.tree.node (target ++ rest) = v.tree.node (source ++ rest))
      (hother : ∀ q, ¬ target <+: q → SameAt v v' q) :
      VolumeStep v (.rsync source target) true v'
  | rsyncPart {v v' : Volume File} {source target : Path}
      (hother : ∀ q, ¬ target <+: q → SameAt v v' q) :
      VolumeStep v (.rsync source target) false v'
  /-- `chown` may take bits of a mode away. -/
  | chownR {v v' : Volume File} {path : Path} {owner : String}
      (htree : v'.tree = v.tree)
      (howner : ∀ q, path <+: q → ¬ IsLink v.tree q → (v'.attributes q).owner = owner)
      (hother : ∀ q, ¬ path <+: q → v'.attributes q = v.attributes q) :
      VolumeStep v (.chownR owner path) true v'
  | chownRPart {v v' : Volume File} {path : Path} {owner : String}
      (htree : v'.tree = v.tree)
      (hother : ∀ q, ¬ path <+: q → v'.attributes q = v.attributes q) :
      VolumeStep v (.chownR owner path) false v'
  | chmod {v v' : Volume File} {path : Path} {mode : Nat} (hpath : v.tree.node path ≠ none)
      (hlink : ¬ IsLink v.tree path) (htree : v'.tree = v.tree)
      (hmode : v'.attributes path = { v.attributes path with mode })
      (hother : ∀ q, q ≠ path → v'.attributes q = v.attributes q) :
      VolumeStep v (.chmod mode path) true v'
  /-- The mode is that of what the link leads to, wherever that is. -/
  | chmodLink {v v' : Volume File} {path : Path} {mode : Nat} {ok : Bool}
      (hlink : IsLink v.tree path) (htree : v'.tree = v.tree) :
      VolumeStep v (.chmod mode path) ok v'
  | chmodFailed {v : Volume File} {path : Path} {mode : Nat} :
      VolumeStep v (.chmod mode path) false v

/-- What `find path -type kind` prints, and its exit status. -/
def FindsKind (tree : FileTree File) (kind : Kind) (path : Path) (found : List Path × Bool) :
    Prop :=
  if found.2 then Finds tree (fun _ => True) kind.wanted path found.1
  else ∀ p ∈ found.1, path <+: p ∧ Passes tree kind.wanted p

/-! ## Commands that succeed -/

def Volume.chownR (v : Volume File) (owner : String) (path : Path) : Volume File where
  tree := v.tree
  attributes := fun q =>
    if path <+: q then { v.attributes q with owner } else v.attributes q

def Volume.chmod (v : Volume File) (mode : Nat) (path : Path) : Volume File where
  tree := v.tree
  attributes := fun q => if q = path then { v.attributes q with mode } else v.attributes q

/-- What exists outside of `x` stays, and what is new outside is above `x`. -/
structure KeepsOutside (x : Path) (v v' : Volume File) : Prop where
  kept : ∀ q, ¬ x <+: q → v.tree.node q ≠ none → SameAt v v' q
  created : ∀ q, ¬ x <+: q → v.tree.node q = none → v'.tree.node q ≠ none → q <+: x

theorem SameAt.trans (h : SameAt v v' q) (h' : SameAt v' v'' q) : SameAt v v'' q :=
  ⟨h'.1.trans h.1, h'.2.trans h.2⟩

theorem KeepsOutside.trans {x : Path} (h : KeepsOutside x v v') (h' : KeepsOutside x v' v'') :
    KeepsOutside x v v'' where
  kept := by
    intro q hq hne
    have hsame := h.kept q hq hne
    exact hsame.trans (h'.kept q hq (hsame.1 ▸ hne))
  created := by
    intro q hq hnone hne
    by_cases hmid : v'.tree.node q = none
    · exact h'.created q hq hmid hne
    · exact h.created q hq hnone hmid

/-- The place of a path outside of `x` where there was nothing, unless it is above `x`. -/
theorem KeepsOutside.node {x : Path} (h : KeepsOutside x v v') (hq : ¬ x <+: q)
    (hx : ¬ q <+: x) : v'.tree.node q = v.tree.node q := by
  by_cases hnone : v.tree.node q = none
  · rw [hnone]
    by_contra hne
    exact hx (h.created q hq hnone hne)
  · exact (h.kept q hq hnone).1

end Shell
