import MarvellW8897.Properties.UpdatePl

/-!
# The files of `update_config`

* `updateConfig_intact` — at every step, the old content is in the config or in the backup.
* `updateConfig_completed` — what the config holds when the script comes to its end.
* `updateConfig_spec` — both, and the change of the value.
-/

namespace MarvellW8897

namespace Scripts

open Effect Plist

variable {Content : Type} {lib : PlistLib Content} {kextName kextExec enableTestSip : String}
  {disk : Disk Content} {t u : List (FileEvent Content)} {copied completed : Bool} {pl : Plist}

/-! ## Runs on a disk -/

theorem diskAfter_append (disk : Disk Content) (t u : List (FileEvent Content)) :
    diskAfter lib disk (t ++ u) = diskAfter lib (diskAfter lib disk t) u :=
  List.foldl_append

theorem ReadsDisk.of_append (h : ReadsDisk lib disk (t ++ u)) :
    ReadsDisk lib (diskAfter lib disk t) u := by
  induction t generalizing disk with
  | nil => exact h
  | cons e t ih => exact ih h.2

/-! ## Operations on one of the files -/

/-- The operations that leave the config alone. -/
def FileOp.KeepsConfig : FileOp Content → Prop
  | openConfig | write _ | writePart => False
  | _ => True

/-- The operations that leave the backup alone. -/
def FileOp.KeepsBackup : FileOp Content → Prop
  | openBackup | copyData => False
  | _ => True

theorem diskAfter_config (h : ∀ e ∈ t, e.op.KeepsConfig) :
    (diskAfter lib disk t).config = disk.config := by
  induction t generalizing disk with
  | nil => rfl
  | cons e t ih =>
    rw [List.forall_mem_cons] at h
    have hstep : (diskStep lib disk e).config = disk.config := by
      obtain ⟨op, resp⟩ := e
      cases op with
      | openConfig | write _ | writePart => exact h.1.elim
      | openBackup => unfold diskStep; dsimp only; split <;> rfl
      | _ => rfl
    exact (ih h.2).trans hstep

theorem diskAfter_backup (h : ∀ e ∈ t, e.op.KeepsBackup) :
    (diskAfter lib disk t).backup = disk.backup := by
  induction t generalizing disk with
  | nil => rfl
  | cons e t ih =>
    rw [List.forall_mem_cons] at h
    have hstep : (diskStep lib disk e).backup = disk.backup := by
      obtain ⟨op, resp⟩ := e
      cases op with
      | openBackup | copyData => exact h.1.elim
      | openConfig => unfold diskStep; dsimp only; split <;> rfl
      | _ => rfl
    exact (ih h.2).trans hstep

/-! ## The copy -/

theorem copy2_keepsConfig : Uses FileOp.KeepsConfig (copy2 : FileM Content Bool) := by
  refine Uses.bind (uses_ask trivial) fun same => Uses.ite (uses_pure _) ?_
  refine Uses.bind (uses_ask trivial) fun source => Uses.ite (uses_pure _) ?_
  refine Uses.bind (uses_ask trivial) fun dest => Uses.ite (uses_pure _) ?_
  refine Uses.bind (uses_ask trivial) fun left => Uses.ite (uses_pure _) ?_
  exact uses_ask trivial

/-- A script that comes to its end has passed this test. -/
theorem runs_guard {failed : Bool} {p : FileM Content Bool} :
    Runs (if failed = true then pure false else p) t true ↔ failed = false ∧ Runs p t true := by
  cases failed with
  | true => simp [runs_pure]
  | false => simp

/-- The same for what an interrupted copy or write leaves. -/
theorem runs_whole {left : Option Content} {p : FileM Content Bool} :
    Runs (if left.isSome = true then pure false else p) t true ↔ left = none ∧ Runs p t true := by
  cases left with
  | none => simp
  | some content => simp [runs_pure]

/-- A copy that returns has made the backup. -/
theorem copy2_copied (h : Runs copy2 t true) :
    (diskAfter lib disk t).backup = some disk.config := by
  obtain ⟨same, t₁, rfl, h₁⟩ := runs_ask_bind.mp h
  obtain ⟨-, h₂⟩ := runs_guard.mp h₁
  obtain ⟨source, t₃, rfl, h₃⟩ := runs_ask_bind.mp h₂
  obtain ⟨-, h₄⟩ := runs_guard.mp h₃
  obtain ⟨dest, t₅, rfl, h₅⟩ := runs_ask_bind.mp h₄
  obtain ⟨hdest, h₆⟩ := runs_guard.mp h₅
  obtain ⟨left, t₇, rfl, h₇⟩ := runs_ask_bind.mp h₆
  obtain ⟨rfl, h₈⟩ := runs_whole.mp h₇
  obtain rfl := runs_ask.mp h₈
  obtain rfl : dest = true := Bool.not_inj hdest
  rfl

/-! ## The dump -/

/-- A dump that returns has written the value. -/
theorem dumpConfig_completed (h : Runs (dumpConfig lib pl) t true) :
    ∃ content, lib.dump pl = some content ∧
      ∀ disk, (diskAfter lib disk t).config = content := by
  obtain ⟨opened, t₁, rfl, h₁⟩ := runs_ask_bind.mp h
  obtain ⟨-, h₂⟩ := runs_guard.mp h₁
  cases hdump : lib.dump pl with
  | none =>
    rw [hdump] at h₂
    obtain ⟨left, t₃, rfl, h₃⟩ := runs_ask_bind.mp h₂
    cases (runs_pure.mp h₃).2
  | some content =>
    rw [hdump] at h₂
    obtain ⟨left, t₃, rfl, h₃⟩ := runs_ask_bind.mp h₂
    obtain ⟨rfl, h₄⟩ := runs_whole.mp h₃
    obtain ⟨printed, t₅, rfl, h₅⟩ := runs_ask_bind.mp h₄
    obtain ⟨-, h₆⟩ := runs_guard.mp h₅
    obtain rfl := runs_ask.mp h₆
    exact ⟨content, rfl, fun _ => rfl⟩

theorem dumpConfig_keepsBackup (lib : PlistLib Content) (pl : Plist) :
    Uses FileOp.KeepsBackup (dumpConfig lib pl) := by
  refine Uses.bind (uses_ask trivial) fun opened => Uses.ite (uses_pure _) ?_
  cases lib.dump pl with
  | none => exact Uses.bind (uses_ask trivial) fun _ => uses_pure _
  | some content =>
    refine Uses.bind (uses_ask trivial) fun left => Uses.ite (uses_pure _) ?_
    refine Uses.bind (uses_ask trivial) fun printed => Uses.ite (uses_pure _) ?_
    exact uses_ask trivial

/-! ## The script -/

theorem rewriteConfig_keepsBackup (content : Option Content) :
    Uses FileOp.KeepsBackup (rewriteConfig lib kextName kextExec enableTestSip content) := by
  unfold rewriteConfig
  cases content.bind lib.load with
  | none => exact uses_pure _
  | some pl =>
    dsimp only
    cases updatePl kextName kextExec enableTestSip pl with
    | error _ => exact uses_pure _
    | ok pl' => exact dumpConfig_keepsBackup lib pl'

/-- A run is a copy that fails, or a copy followed by operations that leave the backup alone. -/
theorem updateConfig_cases
    (h : Runs (updateConfig lib kextName kextExec enableTestSip) t completed) :
    (completed = false ∧ ∀ e ∈ t, e.op.KeepsConfig) ∨
    ∃ copy content rest, t = copy ++ ⟨.readConfig, content⟩ :: rest ∧ Runs copy2 copy true ∧
      Runs (rewriteConfig lib kextName kextExec enableTestSip content) rest completed := by
  obtain ⟨copy, copied, t₂, rfl, hcopy, h₂⟩ := runs_bind.mp h
  cases copied with
  | false =>
    obtain ⟨rfl, rfl⟩ := runs_pure.mp h₂
    rw [List.append_nil]
    exact Or.inl ⟨rfl, copy2_keepsConfig copy false hcopy⟩
  | true =>
    obtain ⟨content, rest, rfl, h₃⟩ := runs_ask_bind.mp h₂
    exact Or.inr ⟨copy, content, rest, rfl, hcopy, h₃⟩

/-- The old content is in the config, or in the backup. -/
def Intact (old disk : Disk Content) : Prop :=
  disk.config = old.config ∨ disk.backup = some old.config

/-- Wherever a run stops, the old content is intact. -/
theorem updateConfig_intact
    (h : Runs (updateConfig lib kextName kextExec enableTestSip) t completed) (hu : u <+: t) :
    Intact disk (diskAfter lib disk u) := by
  rcases updateConfig_cases h with ⟨-, hkeeps⟩ | ⟨copy, content, rest, rfl, hcopy, hrewrite⟩
  · exact Or.inl (diskAfter_config fun e he => hkeeps e (hu.subset he))
  rcases List.prefix_or_prefix_of_prefix hu (List.prefix_append copy _) with hbefore | ⟨v, rfl⟩
  · have hkeeps := copy2_keepsConfig copy true hcopy
    exact Or.inl (diskAfter_config fun e he => hkeeps e (hbefore.subset he))
  · have hv : v <+: ⟨.readConfig, content⟩ :: rest := (List.prefix_append_right_inj copy).mp hu
    have hkeeps : ∀ e ∈ v, e.op.KeepsBackup := by
      intro e he
      rcases List.mem_cons.mp (hv.subset he) with rfl | he
      · exact trivial
      · exact rewriteConfig_keepsBackup content rest completed hrewrite e he
    refine Or.inr ?_
    rw [diskAfter_append, diskAfter_backup hkeeps, copy2_copied hcopy]

/-- A rewriting that returns has written the changed value. -/
theorem rewriteConfig_completed {read : Option Content}
    (h : Runs (rewriteConfig lib kextName kextExec enableTestSip read) t true) :
    ∃ text pl pl' content, read = some text ∧ lib.load text = some pl ∧
      updatePl kextName kextExec enableTestSip pl = .ok pl' ∧ lib.dump pl' = some content ∧
      ∀ disk, (diskAfter lib disk t).config = content := by
  unfold rewriteConfig at h
  cases hload : read.bind lib.load with
  | none =>
    rw [hload] at h
    cases (runs_pure.mp h).2
  | some pl =>
    rw [hload] at h
    obtain ⟨text, htext, hpl⟩ := Option.bind_eq_some_iff.mp hload
    dsimp only at h
    cases hupdate : updatePl kextName kextExec enableTestSip pl with
    | error e =>
      rw [hupdate] at h
      cases (runs_pure.mp h).2
    | ok pl' =>
      rw [hupdate] at h
      obtain ⟨content, hdump, hconfig⟩ := dumpConfig_completed h
      exact ⟨text, pl, pl', content, htext, hpl, hupdate, hdump, hconfig⟩

/-- What the files hold when the script comes to its end. -/
theorem updateConfig_completed
    (h : Runs (updateConfig lib kextName kextExec enableTestSip) t true)
    (hreads : ReadsDisk lib disk t) : ∃ pl pl' content, lib.load disk.config = some pl ∧
      updatePl kextName kextExec enableTestSip pl = .ok pl' ∧ lib.dump pl' = some content ∧
      diskAfter lib disk t = ⟨content, some disk.config⟩ := by
  rcases updateConfig_cases h with ⟨hfalse, -⟩ | ⟨copy, read, rest, rfl, hcopy, hrewrite⟩
  · cases hfalse
  obtain ⟨text, pl, pl', content, rfl, hload, hupdate, hdump, hconfig⟩ :=
    rewriteConfig_completed hrewrite
  have htext : text = (diskAfter lib disk copy).config := hreads.of_append.1 text rfl
  rw [diskAfter_config (copy2_keepsConfig copy true hcopy)] at htext
  have hkeeps : ∀ e ∈ (⟨.readConfig, some text⟩ :: rest : List (FileEvent Content)),
      e.op.KeepsBackup :=
    List.forall_mem_cons.mpr ⟨trivial, rewriteConfig_keepsBackup _ rest true hrewrite⟩
  have hbackup : (diskAfter lib disk (copy ++ ⟨.readConfig, some text⟩ :: rest)).backup =
      some disk.config := by
    rw [diskAfter_append, diskAfter_backup hkeeps, copy2_copied hcopy]
  have hnew : (diskAfter lib disk (copy ++ ⟨.readConfig, some text⟩ :: rest)).config = content := by
    rw [diskAfter_append]
    exact hconfig _
  refine ⟨pl, pl', content, htext ▸ hload, hupdate, hdump, ?_⟩
  rw [← hbackup, ← hnew]

/-- The operations of a run in which nothing fails. -/
def smoothRun (old new : Content) : List (FileEvent Content) :=
  [⟨.sameFile, false⟩, ⟨.openSource, true⟩, ⟨.openBackup, true⟩, ⟨.copyData, none⟩,
    ⟨.copyStat, true⟩, ⟨.readConfig, some old⟩, ⟨.openConfig, true⟩, ⟨.write new, none⟩,
    ⟨.print, true⟩, ⟨.print, true⟩]

/-- If nothing fails, the script comes to its end for every value that it can change and dump. -/
theorem runs_smooth {old new : Content} {pl pl' : Plist} (hload : lib.load old = some pl)
    (hupdate : updatePl kextName kextExec enableTestSip pl = .ok pl')
    (hdump : lib.dump pl' = some new) :
    Runs (updateConfig lib kextName kextExec enableTestSip) (smoothRun old new) true := by
  have hcopy : Runs (copy2 : FileM Content Bool) [⟨.sameFile, false⟩, ⟨.openSource, true⟩,
      ⟨.openBackup, true⟩, ⟨.copyData, none⟩, ⟨.copyStat, true⟩] true := by
    refine runs_ask_bind.mpr ⟨false, _, rfl, runs_guard.mpr ⟨rfl, ?_⟩⟩
    refine runs_ask_bind.mpr ⟨true, _, rfl, runs_guard.mpr ⟨rfl, ?_⟩⟩
    refine runs_ask_bind.mpr ⟨true, _, rfl, runs_guard.mpr ⟨rfl, ?_⟩⟩
    refine runs_ask_bind.mpr ⟨none, _, rfl, runs_whole.mpr ⟨rfl, ?_⟩⟩
    exact runs_ask.mpr rfl
  have hdumped : Runs (dumpConfig lib pl') [⟨.openConfig, true⟩, ⟨.write new, none⟩,
      ⟨.print, true⟩, ⟨.print, true⟩] true := by
    refine runs_ask_bind.mpr ⟨true, _, rfl, runs_guard.mpr ⟨rfl, ?_⟩⟩
    rw [hdump]
    refine runs_ask_bind.mpr ⟨none, _, rfl, runs_whole.mpr ⟨rfl, ?_⟩⟩
    refine runs_ask_bind.mpr ⟨true, _, rfl, runs_guard.mpr ⟨rfl, ?_⟩⟩
    exact runs_ask.mpr rfl
  refine hcopy.bind (runs_guard.mpr ⟨rfl, runs_ask_bind.mpr ⟨some old, _, rfl, ?_⟩⟩)
  rw [rewriteConfig, Option.bind_some, hload]
  dsimp only
  rw [hupdate]
  exact hdumped

theorem readsDisk_smooth (lib : PlistLib Content) (old new : Content) (backup : Option Content) :
    ReadsDisk lib ⟨old, backup⟩ (smoothRun old new) := by
  refine ⟨?_, ?_, ?_, ?_, ?_, ?_, ?_, ?_, ?_, ?_, trivial⟩ <;> intro content h <;> cases h
  rfl

/--
Wherever a run stops, the old content is in the config or in the backup. A run that comes to its end
has made the change `Updated` and kept the old content in the backup; a second one changes nothing.
-/
theorem updateConfig_spec (lib : PlistLib Content) (kextName kextExec enableTestSip : String)
    (disk : Disk Content)
    (h : Runs (updateConfig lib kextName kextExec enableTestSip) t completed)
    (hreads : ReadsDisk lib disk t) :
    (∀ u, u <+: t → Intact disk (diskAfter lib disk u)) ∧
    (completed = true → ∃ pl pl' content, lib.load disk.config = some pl ∧
      diskAfter lib disk t = ⟨content, some disk.config⟩ ∧ lib.load content = some pl' ∧
      Updated kextName kextExec enableTestSip pl pl' ∧
      (entryCount kextName pl ≤ 1 → entryCount kextName pl' = 1) ∧
      updatePl kextName kextExec enableTestSip pl' = .ok pl' ∧
      (∀ disk' t', disk'.config = content →
        Runs (updateConfig lib kextName kextExec enableTestSip) t' true → ReadsDisk lib disk' t' →
        (diskAfter lib disk' t').config = content) ∧
      (kextName = "MarvellW8897Kext.kext" → ∀ py,
        (∃ n, countMarvellKernelAddEntries py pl' = .ok n ∧ 1 ≤ n) ∧
        ∃ n, countOcEntries py pl' = .ok n ∧ 1 ≤ n)) := by
  refine ⟨fun u hu => updateConfig_intact h hu, ?_⟩
  rintro rfl
  obtain ⟨pl, pl', content, hload, hupdate, hdump, hdisk⟩ := updateConfig_completed h hreads
  have hloaded := lib.load_dump pl' content hdump
  have hupdated := updatePl_updated hupdate
  have hagain := updatePl_settles _ _ _ _ _ hupdate
  refine ⟨pl, pl', content, hload, hdisk, hloaded, hupdated, ?_, hagain, ?_, ?_⟩
  · intro hle
    rw [hupdated.entryCount]
    exact Nat.max_eq_left hle
  · intro disk' t' hconfig h' hreads'
    obtain ⟨pl₂, pl₂', content', hload', hupdate', hdump', hdisk'⟩ :=
      updateConfig_completed h' hreads'
    rw [hconfig, hloaded] at hload'
    obtain rfl := Option.some.inj hload'
    rw [hagain] at hupdate'
    obtain rfl := Except.ok.inj hupdate'
    rw [hdump] at hdump'
    obtain rfl := Option.some.inj hdump'
    rw [hdisk']
  · rintro rfl py
    exact hupdated.counted py

/-- Values as the contents of files. -/
def valueLib : PlistLib (Option Plist) where
  empty := none
  load := id
  dump := fun pl => some (some pl)
  load_dump := by
    rintro pl _ ⟨⟩
    rfl

/-- An empty config, after an update with test SIP. -/
def freshConfig : Plist :=
  .dict [("Kernel", .dict [("Add", .array
      [.dict (entry "MarvellW8897Kext.kext" "MarvellW8897Kext")])]),
    ("NVRAM", .dict [("Add", .dict [(guid, .dict [("csr-active-config", .data [3, 0, 0, 0])])]),
      ("Delete", .dict [(guid, .array [.string "csr-active-config"])])])]

theorem updateConfig_spec_fresh :
    Runs (updateConfig valueLib "MarvellW8897Kext.kext" "MarvellW8897Kext" "1")
      (smoothRun (some (.dict [])) (some freshConfig)) true ∧
    ∃ pl', (diskAfter valueLib ⟨some (.dict []), none⟩
      (smoothRun (some (.dict [])) (some freshConfig))).config = some pl' ∧
    Updated "MarvellW8897Kext.kext" "MarvellW8897Kext" "1" (.dict []) pl' := by
  have hupdate : updatePl "MarvellW8897Kext.kext" "MarvellW8897Kext" "1" (.dict []) =
      .ok freshConfig := rfl
  have hrun : Runs (updateConfig valueLib "MarvellW8897Kext.kext" "MarvellW8897Kext" "1")
      (smoothRun (some (.dict [])) (some freshConfig)) true := runs_smooth rfl hupdate rfl
  obtain ⟨-, hcompleted⟩ := updateConfig_spec valueLib "MarvellW8897Kext.kext" "MarvellW8897Kext"
    "1" ⟨some (.dict []), none⟩ hrun (readsDisk_smooth _ _ _ _)
  obtain ⟨pl, pl', content, hload, hdisk, hloaded, hupdated, -⟩ := hcompleted rfl
  obtain rfl : Plist.dict [] = pl := Option.some.inj hload
  exact ⟨hrun, pl', by rw [hdisk]; exact hloaded, hupdated⟩

end Scripts

end MarvellW8897
