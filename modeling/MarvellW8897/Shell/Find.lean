import MarvellW8897.Shell.Files

/-!
# `find`

A walk over a file tree. A directory comes before what is in it, and its entries in the order of the
file system; a directory that cannot be read shows a part of them at most.

* `Finds` — what `find path` prints, for any test of what is printed.
* `Finds.ancestorsFirst` — no path comes after one that lies at or below it.
* `Finds.sound`, `Finds.complete` — what is printed passes the test, and if every directory can be
  read, all that passes it is printed.
* `firstOccurrences` — `awk '!seen[$0]++'`.
-/

namespace Shell

variable {File : Type} {tree tree' : FileTree File} {readable : Path → Prop}
  {wanted : Path → Node File → Bool} {path p q : Path} {l : List Path}

inductive Finds (tree : FileTree File) (readable : Path → Prop)
    (wanted : Path → Node File → Bool) : Path → List Path → Prop where
  | missing {path : Path} (h : tree.node path = none) : Finds tree readable wanted path []
  /-- A link is not followed. -/
  | leaf {path : Path} {node : Node File} (h : tree.node path = some node)
      (hleaf : node ≠ .directory) :
      Finds tree readable wanted path (if wanted path node then [path] else [])
  | directory {path : Path} {names : List String} {below : String → List Path}
      (h : tree.node path = some .directory) (hnodup : names.Nodup)
      (hexist : ∀ name ∈ names, tree.node (path ++ [name]) ≠ none)
      (hall : readable path → ∀ name, tree.node (path ++ [name]) ≠ none → name ∈ names)
      (hbelow : ∀ name ∈ names, Finds tree readable wanted (path ++ [name]) (below name)) :
      Finds tree readable wanted path
        ((if wanted path .directory then [path] else []) ++ names.flatMap below)

/-- What passes the test of `find`. -/
def Passes (tree : FileTree File) (wanted : Path → Node File → Bool) (p : Path) : Prop :=
  ∃ node, tree.node p = some node ∧ wanted p node = true

theorem mem_self_if {b : Bool} : q ∈ (if b then [p] else []) ↔ q = p ∧ b = true := by
  cases b <;> simp

/-- What is printed lies at or below the start, and passes the test. -/
theorem Finds.sound (h : Finds tree readable wanted path l) (hp : p ∈ l) :
    path <+: p ∧ Passes tree wanted p := by
  induction h with
  | missing _ => cases hp
  | leaf hnode _ =>
    obtain ⟨rfl, hwanted⟩ := mem_self_if.mp hp
    exact ⟨List.prefix_rfl, _, hnode, hwanted⟩
  | directory hnode _ _ _ _ ih =>
    rcases List.mem_append.mp hp with hp | hp
    · obtain ⟨rfl, hwanted⟩ := mem_self_if.mp hp
      exact ⟨List.prefix_rfl, _, hnode, hwanted⟩
    · obtain ⟨name, hname, hp⟩ := List.mem_flatMap.mp hp
      obtain ⟨hbelow, hpasses⟩ := ih name hname hp
      exact ⟨(List.prefix_append _ _).trans hbelow, hpasses⟩

/-- Entries of one directory have nothing in common below them. -/
theorem entry_unique {name name' : String} (h : path ++ [name] <+: p)
    (h' : path ++ [name'] <+: p) : name = name' := by
  have hlength : (path ++ [name]).length = (path ++ [name']).length := by simp
  have heq : path ++ [name] = path ++ [name'] :=
    (List.prefix_of_prefix_length_le h h' hlength.le).eq_of_length hlength
  exact List.singleton_injective (List.append_cancel_left heq)

theorem not_entry_prefix {name : String} : ¬ path ++ [name] <+: path := fun h =>
  absurd h.length_le (by simp)

theorem Finds.ancestorsFirst (h : Finds tree readable wanted path l) :
    l.Pairwise fun p q => ¬ q <+: p := by
  induction h with
  | missing _ => exact List.Pairwise.nil
  | @leaf path node _ _ => cases wanted path node <;> simp
  | @directory path names below _ hnodup _ _ hbelow ih =>
    refine List.pairwise_append.mpr ⟨?_, List.pairwise_flatMap.mpr ⟨ih, ?_⟩, ?_⟩
    · cases wanted path .directory <;> simp
    · refine hnodup.imp_of_mem fun {name name'} hname hname' hne x hx y hy hyx => hne ?_
      exact entry_unique ((hbelow name hname).sound hx).1
        (((hbelow name' hname').sound hy).1.trans hyx)
    · intro x hx y hy hyx
      obtain ⟨rfl, -⟩ := mem_self_if.mp hx
      obtain ⟨name, hname, hy⟩ := List.mem_flatMap.mp hy
      exact not_entry_prefix (((hbelow name hname).sound hy).1.trans hyx)

/-- Where every directory can be read, nothing is missed. -/
theorem Finds.complete (h : Finds tree readable wanted path l) (hreadable : ∀ q, readable q)
    (hp : path <+: p) (hpasses : Passes tree wanted p) : p ∈ l := by
  obtain ⟨node, hnode, hwanted⟩ := hpasses
  induction h with
  | missing hnone =>
    rw [FileTree.none_below hp hnone] at hnode
    cases hnode
  | @leaf path leaf hpath hleaf =>
    by_cases heq : path = p
    · rw [heq, hnode] at hpath
      obtain rfl := Option.some.inj hpath
      exact mem_self_if.mpr ⟨heq.symm, heq ▸ hwanted⟩
    · rw [FileTree.directory_above hp heq (by simp [hnode])] at hpath
      exact absurd (Option.some.inj hpath).symm hleaf
  | @directory path names below hpath _ _ hall _ ih =>
    obtain ⟨rest, rfl⟩ := hp
    cases rest with
    | nil =>
      rw [List.append_nil] at hnode hwanted ⊢
      rw [hpath] at hnode
      obtain rfl := Option.some.inj hnode
      exact List.mem_append_left _ (mem_self_if.mpr ⟨rfl, hwanted⟩)
    | cons name rest =>
      have hbelow : path ++ [name] <+: path ++ name :: rest := ⟨rest, by simp⟩
      have hentry : tree.node (path ++ [name]) ≠ none := fun hnone => by
        rw [FileTree.none_below hbelow hnone] at hnode
        cases hnode
      have hname := hall (hreadable path) name hentry
      exact List.mem_append_right _ (List.mem_flatMap.mpr ⟨name, hname, ih name hname hbelow⟩)

variable {α : Type} [DecidableEq α] {seen : List α} {x : α}

/-- `awk '!seen[$0]++'`, when the lines `seen` have come before. -/
def unseen (seen : List α) : List α → List α
  | [] => []
  | x :: lines => if x ∈ seen then unseen seen lines else x :: unseen (x :: seen) lines

def firstOccurrences (lines : List α) : List α := unseen [] lines

theorem mem_unseen {lines : List α} : x ∈ unseen seen lines ↔ x ∈ lines ∧ x ∉ seen := by
  induction lines generalizing seen with
  | nil => simp [unseen]
  | cons y lines ih =>
    unfold unseen
    by_cases hy : y ∈ seen
    · rw [if_pos hy, ih, List.mem_cons]
      constructor
      · exact fun h => ⟨Or.inr h.1, h.2⟩
      · rintro ⟨rfl | hx, hseen⟩
        · exact absurd hy hseen
        · exact ⟨hx, hseen⟩
    · rw [if_neg hy, List.mem_cons, ih, List.mem_cons, List.mem_cons, not_or]
      by_cases hxy : x = y
      · simp [hxy, hy]
      · simp [hxy]

theorem mem_firstOccurrences {lines : List α} : x ∈ firstOccurrences lines ↔ x ∈ lines := by
  simp [firstOccurrences, mem_unseen]

theorem nodup_unseen (seen lines : List α) : (unseen seen lines).Nodup := by
  induction lines generalizing seen with
  | nil => exact List.nodup_nil
  | cons y lines ih =>
    unfold unseen
    split
    · exact ih seen
    · exact List.nodup_cons.mpr ⟨fun hy => (mem_unseen.mp hy).2 List.mem_cons_self, ih _⟩

theorem sublist_unseen (seen lines : List α) : (unseen seen lines).Sublist lines := by
  induction lines generalizing seen with
  | nil => exact List.Sublist.refl _
  | cons y lines ih =>
    unfold unseen
    split
    · exact (ih seen).trans (List.sublist_cons_self y lines)
    · exact (ih _).cons_cons y

/-- The lines that are left keep their order, and none comes twice. -/
theorem pairwise_firstOccurrences {R : α → α → Prop} {lines : List α}
    (h : lines.Pairwise fun x y => R x y ∨ x = y) : (firstOccurrences lines).Pairwise R :=
  ((h.sublist (sublist_unseen [] lines)).and (nodup_unseen [] lines)).imp
    fun hxy => hxy.1.resolve_right hxy.2

end Shell
