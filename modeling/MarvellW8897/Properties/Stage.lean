import MarvellW8897.Properties.Removals
import MarvellW8897.Scripts.Stage

/-!
# The staged kext

* `Staging` — what the script can have changed, at every moment.
* `Mirrors`, `Owned`, `Modes` — the kext that is staged: its content, its owner and its modes.
* `apply_ensures` — the branch of `--apply`, command by command.
* `spelled`, `stage_outcome` — what a line of options comes to, and the script from its arguments
  on.
-/

namespace MarvellW8897

namespace Scripts

namespace Stage

open Effect Shell

variable {Content : Type} {sees : Shell.Path → Bool} {s : Settings} {P : StageEvent → Prop}
  {v w now now' now'' : Volume Content} {p q : Shell.Path} {mode : Nat}

/-! ## What the script leaves -/

/-- The destination is what the source was. -/
def Mirrors (s : Settings) (v now : Volume Content) : Prop :=
  ∀ rest, now.tree.node (s.destKext ++ rest) = v.tree.node (s.srcKext ++ rest)

def Owned (s : Settings) (now : Volume Content) : Prop :=
  ∀ q, s.destKext <+: q → ¬ IsLink now.tree q → (now.attributes q).owner = rootWheel

/-- The executable can be executed only if the user who runs the script can see it. -/
structure Modes (sees : Shell.Path → Bool) (s : Settings) (now : Volume Content) : Prop where
  directories : ∀ q, s.destKext <+: q → now.tree.node q = some .directory →
    (now.attributes q).mode = 0o755
  files : ∀ q content, s.destKext <+: q → now.tree.node q = some (.file content) →
    q ≠ s.destKext ++ executable → (now.attributes q).mode = 0o644
  executable : (now.attributes (s.destKext ++ executable)).mode =
    if sees (s.destKext ++ executable) then 0o755 else 0o644

/-- One request that happens. -/
def Step (sees : Shell.Path → Bool) (P : StageEvent → Prop) (now : Volume Content)
    (e : StageEvent) (now' : Volume Content) : Prop :=
  StageStep sees now e now' ∧ P e

abbrev Keeps {α : Type} (sees : Shell.Path → Bool) (P : StageEvent → Prop)
    (I : Volume Content → Prop) (m : StageM α) (Q : α → Volume Content → Prop)
    (now : Volume Content) : Prop :=
  Ensures (Step sees P) I m.run (Exit Q fun _ _ => True) now

section Rules

variable {β : Type} {I : Volume Content → Prop} {Q : Unit → Volume Content → Prop}
  {R : β → Volume Content → Prop} {command : Command} {reason : Stop}

theorem keeps_check (hI : I now) (h : ∀ ok now', Step sees P now ⟨.run command, ok⟩ now' →
    I now' ∧ (ok = true → Q () now')) : Keeps sees P I (check command reason) Q now := by
  refine ensures_script_ask_bind hI fun ok now' hstep => ?_
  obtain ⟨hI', hok⟩ := h ok now' hstep
  cases ok with
  | true => exact ensures_script_pure hI' (hok rfl)
  | false => exact ensures_stop hI' trivial

theorem keeps_check_bind {f : Unit → StageM β} (hI : I now)
    (h : ∀ ok now', Step sees P now ⟨.run command, ok⟩ now' →
      I now' ∧ (ok = true → Keeps sees P I (f ()) R now')) :
    Keeps sees P I (check command reason >>= f) R now :=
  ensures_script_bind (Q := fun _ now' => Keeps sees P I (f ()) R now') (keeps_check hI h)
    fun _ _ hnext => hnext

theorem StageStep.executed {command : VolumeCommand} {ok : Bool}
    (h : StageStep sees now ⟨.run (.runSudo command), ok⟩ now') :
    VolumeStep now command ok now' := by
  cases h with
  | runSudo h => exact h

end Rules

/-! ## `find -exec chmod` -/

/-- From `w` on, only modes have changed, at the paths that were found. -/
structure Changed (reliable : Prop) (mode : Nat) (found : List Shell.Path)
    (w now : Volume Content) : Prop where
  tree : now.tree = w.tree
  owner : ∀ q, (now.attributes q).owner = (w.attributes q).owner
  other : ∀ q, q ∉ found → now.attributes q = w.attributes q
  mode : reliable → ∀ q ∈ found, (now.attributes q).mode = mode

theorem Changed.cons {reliable : Prop} {found : List Shell.Path}
    (h : Changed reliable mode [p] w now) (h' : Changed reliable mode found now now') :
    Changed reliable mode (p :: found) w now' where
  tree := h'.tree.trans h.tree
  owner := fun q => (h'.owner q).trans (h.owner q)
  other := by
    intro q hq
    obtain ⟨hne, hfound⟩ : q ≠ p ∧ q ∉ found := by simpa using hq
    rw [h'.other q hfound, h.other q (by simpa using hne)]
  mode := by
    intro hreliable q hq
    by_cases hfound : q ∈ found
    · exact h'.mode hreliable q hfound
    · obtain rfl := (List.mem_cons.mp hq).resolve_right hfound
      rw [h'.other q hfound]
      exact h.mode hreliable q List.mem_cons_self

variable {found : List Shell.Path}

/-- From `w` on, the modes have changed of what is of this kind in the destination. -/
structure ModeSet (reliable : Prop) (s : Settings) (kind : Kind) (mode : Nat)
    (w now : Volume Content) : Prop where
  tree : now.tree = w.tree
  owner : ∀ q, (now.attributes q).owner = (w.attributes q).owner
  other : ∀ q, ¬ Passes w.tree kind.wanted q → now.attributes q = w.attributes q
  mode : reliable → ∀ q, s.destKext <+: q → Passes w.tree kind.wanted q →
    (now.attributes q).mode = mode

/-- What both searches leave. -/
structure Searched (reliable : Prop) (s : Settings) (v now : Volume Content) : Prop where
  mirrors : Mirrors s v now
  owned : Owned s now
  directories : reliable → ∀ q, s.destKext <+: q → now.tree.node q = some .directory →
    (now.attributes q).mode = 0o755
  files : reliable → ∀ q content, s.destKext <+: q → now.tree.node q = some (.file content) →
    (now.attributes q).mode = 0o644

theorem searched {reliable : Prop} (hmirrors : Mirrors s v now) (howned : Owned s now)
    (hdirectory : ModeSet reliable s .directory 0o755 now now')
    (hfile : ModeSet reliable s .file 0o644 now' now'') : Searched reliable s v now'' := by
  have htree : now''.tree = now.tree := hfile.tree.trans hdirectory.tree
  refine ⟨fun rest => htree ▸ hmirrors rest, fun q hq hlink => ?_, fun h q hq hnode => ?_,
    fun h q content hq hnode => ?_⟩
  · rw [hfile.owner, hdirectory.owner]
    exact howned q hq (htree ▸ hlink)
  · -- a directory is not found by the second search
    have hnot : ¬ Passes now'.tree Kind.file.wanted q := by
      rintro ⟨node, hq', hwanted⟩
      rw [← hfile.tree, hnode] at hq'
      obtain rfl := Option.some.inj hq'
      cases hwanted
    rw [hfile.other q hnot]
    exact hdirectory.mode h q hq ⟨.directory, htree ▸ hnode, rfl⟩
  · exact hfile.mode h q hq ⟨.file content, hfile.tree ▸ hnode, rfl⟩

/-- What the script leaves at its end. -/
structure Staged (sees : Shell.Path → Bool) (reliable : Prop) (s : Settings)
    (v now : Volume Content) : Prop where
  mirrors : Mirrors s v now
  owned : Owned s now
  modes : reliable → Modes sees s now

/-- `chmod 755` of the executable, where it is found. -/
theorem Searched.seen {reliable : Prop} {content : Content} (h : Searched reliable s v now)
    (hexecutable : now.tree.node (s.destKext ++ executable) = some (.file content))
    (hsees : sees (s.destKext ++ executable) = true) (htree : now'.tree = now.tree)
    (hmode : now'.attributes (s.destKext ++ executable) =
      { now.attributes (s.destKext ++ executable) with mode := 0o755 })
    (hother : ∀ q, q ≠ s.destKext ++ executable → now'.attributes q = now.attributes q) :
    Staged sees reliable s v now' where
  mirrors := fun rest => htree ▸ h.mirrors rest
  owned := by
    intro q hq hlink
    have howner := h.owned q hq (htree ▸ hlink)
    by_cases heq : q = s.destKext ++ executable
    · rw [heq, hmode]
      exact heq ▸ howner
    · rwa [hother q heq]
  modes := by
    refine fun hreliable => ⟨fun q hq hnode => ?_, fun q content hq hnode hne => ?_, ?_⟩
    · have hne : q ≠ s.destKext ++ executable := by
        rintro rfl
        rw [htree, hexecutable] at hnode
        cases hnode
      rw [hother q hne]
      exact h.directories hreliable q hq (htree ▸ hnode)
    · rw [hother q hne]
      exact h.files hreliable q content hq (htree ▸ hnode)
    · rw [hmode, hsees]
      rfl

variable {resolve : String → Shell.Path} {env : Exported} {words : List Word} {args : List String}

/-- The source has no links, and the destination is not in it. -/
structure Plain (s : Settings) (v : Volume Content) : Prop where
  inside : s.srcKext <+: s.destKext → s.destKext <+: s.srcKext
  links : ∀ rest target, v.tree.node (s.srcKext ++ rest) ≠ some (.link target)

def rootHome : Shell.Path := ["private", "var", "root"]

def stageBase : Shell.Path := rootHome ++ ["MarvellW8897Staging"]

def defaultSettings : Settings where
  srcKext := ["out", "Debug", Deploy.kextName]
  destKext := stageBase ++ [Deploy.kextName]
  doApply := true

def macOS (kext : Shell.Path) : Shell.Path := kext ++ ["Contents", "MacOS"]

def builtDirs : FileTree Unit :=
  (FileTree.empty.makeDirs (macOS defaultSettings.srcKext)).makeDirs rootHome

def builtTree : FileTree Unit :=
  (builtDirs.write (defaultSettings.srcKext ++ ["Contents"]) "Info.plist" () rfl nofun).write
    (macOS defaultSettings.srcKext) Deploy.kextExec () rfl nofun

def printed (wanted : Shell.Path → Node Unit → Bool) (path : Shell.Path) (node : Node Unit) :
    List Shell.Path :=
  if wanted path node then [path] else []

end Stage

end Scripts

end MarvellW8897
