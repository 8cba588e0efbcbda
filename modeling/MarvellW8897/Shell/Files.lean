import MarvellW8897.Effect.Path
import MarvellW8897.Effect.Program
import Mathlib.Data.List.Infix

/-!
# File trees and the commands that change them

A file tree, and what `[[ -e ]]`, `mkdir -p`, `cp -R` and `rm -rf` do to it. Paths are physical: no
command is given a path that leads through a link. A command that fails may have done a part of its
work.

* `FileTree` — what stands at each path; below a path that is no directory there is nothing.
* `Executes` — one command, with its exit status.
* `makeDirs`, `copied`, `removed` — the trees that commands leave when they succeed.
-/

namespace Shell

open Effect

/-- The names from the root down. -/
abbrev Path := List String

/-- What stands at a path. The content of a file is of any type. -/
inductive Node (File : Type) where
  | file (content : File)
  | directory
  | link (target : String)
deriving DecidableEq, Repr

/-- A file tree: what stands in a directory has a directory above it. -/
structure FileTree (File : Type) where
  node : Path → Option (Node File)
  closed : ∀ path name, node (path ++ [name]) ≠ none → node path = some .directory

variable {File : Type} {tree tree' : FileTree File} {path source target q : Path}

/-- Above what exists there are directories. -/
theorem FileTree.directory_above (h : path <+: q) (hne : path ≠ q) (hq : tree.node q ≠ none) :
    tree.node path = some .directory := by
  obtain ⟨rest, rfl⟩ := h
  induction rest using List.reverseRecOn with
  | nil => simp at hne
  | append_singleton rest name ih =>
    rw [← List.append_assoc] at hq
    have habove := tree.closed _ _ hq
    cases rest with
    | nil => simpa using habove
    | cons _ _ => exact ih (by simp) (by simp [habove])

/-- Below what does not exist there is nothing. -/
theorem FileTree.none_below (h : path <+: q) (hnone : tree.node path = none) :
    tree.node q = none := by
  by_contra hq
  by_cases hne : path = q
  · exact hq (hne ▸ hnone)
  · rw [FileTree.directory_above h hne hq] at hnone
    cases hnone

/-! ## Commands -/

inductive Command where
  /-- `[[ -e path ]]` -/
  | exists (path : Path)
  /-- `mkdir -p path` -/
  | mkdirP (path : Path)
  /-- `cp -R source target` -/
  | copyR (source target : Path)
  /-- `rm -rf path` -/
  | removeR (path : Path)
deriving DecidableEq, Repr

/-- Programs of commands, which see their exit status. -/
abbrev ShellM := Program Command fun _ => Bool

abbrev run (command : Command) : ShellM Bool := Program.ask command

abbrev ShellEvent := Event Command fun _ => Bool

/-- The place of the copy: in the target, if that is a directory. -/
def destination (tree : FileTree File) (source target : Path) : Path :=
  match tree.node target with
  | some .directory => target ++ source.getLast?.toList
  | _ => target

/-- The command takes the first tree to the second, with this exit status. -/
inductive Executes : FileTree File → ShellEvent → FileTree File → Prop where
  | found {tree : FileTree File} {path : Path} (h : tree.node path ≠ none) :
      Executes tree ⟨.exists path, true⟩ tree
  /-- A link without a target does not exist for `-e`. -/
  | missing {tree : FileTree File} {path : Path}
      (h : tree.node path = none ∨ ∃ target, tree.node path = some (.link target)) :
      Executes tree ⟨.exists path, false⟩ tree
  | made {tree tree' : FileTree File} {path : Path}
      (hpath : ∀ q, q <+: path → tree'.node q = some .directory)
      (hkept : ∀ q, tree.node q ≠ none → tree'.node q = tree.node q)
      (hnew : ∀ q, ¬ q <+: path → tree'.node q = tree.node q) :
      Executes tree ⟨.mkdirP path, true⟩ tree'
  | madePart {tree tree' : FileTree File} {path : Path}
      (hkept : ∀ q, tree.node q ≠ none → tree'.node q = tree.node q)
      (hnew : ∀ q, ¬ q <+: path → tree'.node q = tree.node q) :
      Executes tree ⟨.mkdirP path, false⟩ tree'
  | copied {tree tree' : FileTree File} {source target : Path}
      (hcopy : ∀ rest, tree.node (source ++ rest) ≠ none →
        tree'.node (destination tree source target ++ rest) = tree.node (source ++ rest))
      (hkept : ∀ rest, tree.node (source ++ rest) = none →
        tree'.node (destination tree source target ++ rest) =
          tree.node (destination tree source target ++ rest))
      (hother : ∀ q, ¬ destination tree source target <+: q → tree'.node q = tree.node q) :
      Executes tree ⟨.copyR source target, true⟩ tree'
  | copiedPart {tree tree' : FileTree File} {source target : Path}
      (hother : ∀ q, ¬ destination tree source target <+: q → tree'.node q = tree.node q) :
      Executes tree ⟨.copyR source target, false⟩ tree'
  | removed {tree tree' : FileTree File} {path : Path}
      (hpath : ∀ q, path <+: q → tree'.node q = none)
      (hother : ∀ q, ¬ path <+: q → tree'.node q = tree.node q) :
      Executes tree ⟨.removeR path, true⟩ tree'
  | removedPart {tree tree' : FileTree File} {path : Path}
      (hpath : ∀ q, path <+: q → tree'.node q = tree.node q ∨ tree'.node q = none)
      (hother : ∀ q, ¬ path <+: q → tree'.node q = tree.node q) :
      Executes tree ⟨.removeR path, false⟩ tree'

/-! ## Commands that succeed -/

/-- The directories of the path, added where there is nothing. -/
def FileTree.makeDirs (tree : FileTree File) (path : Path) : FileTree File where
  node := fun q => if q <+: path then some .directory else tree.node q
  closed := by
    intro q name h
    by_cases hq : q <+: path
    · exact if_pos hq
    · have hbelow : ¬ q ++ [name] <+: path := fun h => hq ((List.prefix_append q _).trans h)
      rw [if_neg hbelow] at h
      rw [if_neg hq]
      exact tree.closed q name h

/-- The tree without what is at the path or below it. -/
def FileTree.remove (tree : FileTree File) (path : Path) : FileTree File where
  node := fun q => if path <+: q then none else tree.node q
  closed := by
    intro q name h
    by_cases hq : path <+: q
    · rw [if_pos (hq.trans (List.prefix_append q _))] at h
      exact absurd rfl h
    · rw [if_neg hq]
      by_cases hbelow : path <+: q ++ [name]
      · rw [if_pos hbelow] at h
        exact absurd rfl h
      · rw [if_neg hbelow] at h
        exact tree.closed q name h

/-- The tree with a copy of `source` as `name` in the directory `above`, where it is new. -/
def FileTree.copy (tree : FileTree File) (source above : Path) (name : String)
    (habove : tree.node above = some .directory) : FileTree File where
  node := fun q =>
    if above ++ [name] <+: q then tree.node (source ++ q.drop (above.length + 1)) else tree.node q
  closed := by
    intro q last h
    by_cases hq : above ++ [name] <+: q
    · rw [if_pos (hq.trans (List.prefix_append q _))] at h
      rw [if_pos hq]
      obtain ⟨rest, rfl⟩ := hq
      rw [List.append_assoc (above ++ [name]), List.drop_left' (by simp), ← List.append_assoc] at h
      rw [List.drop_left' (by simp)]
      exact tree.closed _ last h
    · rw [if_neg hq]
      by_cases hbelow : above ++ [name] <+: q ++ [last]
      · rcases List.prefix_concat_iff.mp hbelow with heq | hprefix
        · obtain ⟨rfl, -⟩ := List.append_inj' heq rfl
          exact habove
        · exact absurd hprefix hq
      · rw [if_neg hbelow] at h
        exact tree.closed q last h

/-- The tree with this content in the file `name` of the directory `above`. -/
def FileTree.write (tree : FileTree File) (above : Path) (name : String) (content : File)
    (habove : tree.node above = some .directory) (hfile : ∀ node, tree.node (above ++ [name]) =
      some node → ∃ old, node = .file old) : FileTree File where
  node := fun q => if q = above ++ [name] then some (.file content) else tree.node q
  closed := by
    intro q last h
    have hq : tree.node q = some .directory := by
      split at h
      · next heq => rwa [(List.append_inj' heq rfl).1]
      · exact tree.closed q last h
    have hne : q ≠ above ++ [name] := by
      rintro rfl
      obtain ⟨old, hold⟩ := hfile _ hq
      cases hold
    rw [if_neg hne, hq]

def FileTree.empty : FileTree File where
  node := fun _ => none
  closed := fun _ _ h => absurd rfl h

theorem FileTree.makeDirs_self (tree : FileTree File) (path : Path) :
    (tree.makeDirs path).node path = some .directory := if_pos List.prefix_rfl

/-- `mkdir -p` of a path that leads through directories and places that are free. -/
theorem executes_makeDirs (h : ∀ q ∈ path.inits, tree.node q = none ∨
    tree.node q = some .directory) : Executes tree ⟨.mkdirP path, true⟩ (tree.makeDirs path) := by
  refine Executes.made (fun q hq => if_pos hq) ?_ (fun q hq => if_neg hq)
  intro q hq
  by_cases hpath : q <+: path
  · have hdirectory := (h q ((List.mem_inits q path).mpr hpath)).resolve_left hq
    exact (if_pos hpath).trans hdirectory.symm
  · exact if_neg hpath

theorem executes_remove (tree : FileTree File) (path : Path) :
    Executes tree ⟨.removeR path, true⟩ (tree.remove path) :=
  Executes.removed (fun _ hq => if_pos hq) (fun _ hq => if_neg hq)

theorem FileTree.copy_node {above : Path} {name : String}
    (habove : tree.node above = some .directory) (rest : Path) :
    (tree.copy source above name habove).node (above ++ [name] ++ rest) =
      tree.node (source ++ rest) := by
  refine (if_pos (List.prefix_append _ rest)).trans ?_
  rw [List.drop_left' (by simp)]

theorem executes_copy {above : Path} {name : String}
    (habove : tree.node above = some .directory) (hfree : tree.node (above ++ [name]) = none) :
    Executes tree ⟨.copyR source (above ++ [name]), true⟩
      (tree.copy source above name habove) := by
  have hdest : destination tree source (above ++ [name]) = above ++ [name] := by
    rw [destination, hfree]
  refine Executes.copied ?_ ?_ ?_
  · intro rest _
    rw [hdest, FileTree.copy_node]
  · intro rest hrest
    rw [hdest, FileTree.copy_node, hrest, FileTree.none_below (List.prefix_append _ rest) hfree]
  · intro q hq
    rw [hdest] at hq
    exact if_neg hq

end Shell
