import MarvellW8897.Properties.DeployOrder
import MarvellW8897.Properties.Removals
import MarvellW8897.Properties.UpdateConfig
import MarvellW8897.Scripts.Install

/-!
# The copy and the config on the EFI partition

The steps 8 and 9 of a deploy over one tree of files, at every moment.

* `Mirrors` — the kext on the partition is the one that was built.
* `Installing` — what has changed in the tree: the kext, and the config once the kext mirrors.
* `copyKext_ensures`, `changeConfig_ensures` — the two steps. Their comparisons always agree, so
  that a run ends early only where a command fails or a file cannot be read.
* `install_mirrors` — both steps, as runs.
-/

namespace MarvellW8897

namespace Scripts

namespace Deploy

open Effect Plist Shell

variable {Content : Type} {tools : Tools Content} {s : Settings} {efiMount : Shell.Path}
  {tree now now' : FileTree Content} {q : Shell.Path} {stamp : String}

/-! ## The places on the partition -/

theorem kextDst_eq (efiMount : Shell.Path) :
    kextDst efiMount = ocDir efiMount ++ ["Kexts", kextName] := List.append_assoc _ _ _

/-- The config is not in the kext. -/
theorem not_dst_config : ¬ kextDst efiMount <+: config efiMount := by
  intro h
  have hlength := h.length_le
  rw [kextDst_eq] at hlength
  simp [config] at hlength

theorem not_dst_backup : ¬ kextDst efiMount <+: backup efiMount stamp := by
  intro h
  have hlength := h.length_le
  rw [kextDst_eq] at hlength
  simp [backup] at hlength

theorem config_ne_kexts : config efiMount ≠ kexts efiMount := by
  simp [config, kexts]

theorem backup_ne_kexts : backup efiMount stamp ≠ kexts efiMount := by
  intro h
  have hname := List.singleton_inj.mp (List.append_cancel_left h)
  have hhead := congrArg (fun name => name.toList.head?) hname
  simp at hhead

/-! ## What has changed -/

/-- The kext on the partition is the one that stood in the build before. -/
def Mirrors (s : Settings) (efiMount : Shell.Path) (tree now : FileTree Content) : Prop :=
  ∀ rest, now.node (kextDst efiMount ++ rest) = tree.node (s.kextSrc ++ rest)

/-- Nothing but the kext on the partition has changed, and the directory above it, if it is new. -/
structure Copying (efiMount : Shell.Path) (tree now : FileTree Content) : Prop where
  other : ∀ q, ¬ kextDst efiMount <+: q → q ≠ kexts efiMount → now.node q = tree.node q
  kexts : tree.node (kexts efiMount) ≠ none →
    now.node (kexts efiMount) = tree.node (kexts efiMount)

/-- The config has changed too, but only beside a kext that mirrors the build. -/
structure Installing (s : Settings) (efiMount : Shell.Path) (tree now : FileTree Content) :
    Prop where
  other : ∀ q, ¬ kextDst efiMount <+: q → q ≠ Deploy.kexts efiMount → q ≠ Deploy.config efiMount →
    (∀ stamp, q ≠ backup efiMount stamp) → now.node q = tree.node q
  kexts : tree.node (Deploy.kexts efiMount) ≠ none →
    now.node (Deploy.kexts efiMount) = tree.node (Deploy.kexts efiMount)
  config : Copying efiMount tree now ∨ Mirrors s efiMount tree now

theorem Copying.installing (h : Copying efiMount tree now) : Installing s efiMount tree now where
  other := fun q hq hkexts _ _ => h.other q hq hkexts
  kexts := h.kexts
  config := Or.inl h

theorem Copying.config (h : Copying efiMount tree now) :
    now.node (config efiMount) = tree.node (config efiMount) :=
  h.other _ not_dst_config config_ne_kexts

theorem copying_refl (efiMount : Shell.Path) (tree : FileTree Content) :
    Copying efiMount tree tree := ⟨fun _ _ _ => rfl, fun _ => rfl⟩

/-- `mkdir -p` of the directory above the kext, where OpenCore is. -/
theorem copying_mkdirP {ok : Bool} (h : Executes tree ⟨.mkdirP (kexts efiMount), ok⟩ now)
    (hoc : tree.node (ocDir efiMount) = some .directory) : Copying efiMount tree now where
  other := by
    intro q _ hne
    by_cases hq : q <+: kexts efiMount
    · have habove : q <+: ocDir efiMount := (List.prefix_concat_iff.mp hq).resolve_left hne
      refine (adds_mkdirP h List.prefix_rfl).kept q fun hnone => ?_
      rw [FileTree.none_below habove hnone] at hoc
      cases hoc
    · exact mkdirP_other h hq
  kexts := (adds_mkdirP h List.prefix_rfl).kept _

/-- What a command leaves that reaches no further than the kext on the partition. -/
theorem Copying.step (h : Copying efiMount tree now)
    (hother : ∀ q, ¬ kextDst efiMount <+: q → now'.node q = now.node q) :
    Copying efiMount tree now' where
  other := fun q hq hne => (hother q hq).trans (h.other q hq hne)
  kexts := by
    intro hne
    refine (hother _ fun hbelow => ?_).trans (h.kexts hne)
    have hlength : (Deploy.kexts efiMount).length + 1 ≤ (Deploy.kexts efiMount).length := by
      simpa [kextDst] using hbelow.length_le
    exact Nat.not_succ_le_self _ hlength

/-- Beside the partition's kext, the build is as it was. -/
theorem Copying.source (h : Copying efiMount tree now)
    (hbeside : Beside (kextDst efiMount) s.kextSrc) (rest : Shell.Path) :
    now.node (s.kextSrc ++ rest) = tree.node (s.kextSrc ++ rest) := by
  refine h.other _ (hbeside.below (List.prefix_append _ rest)).inside fun heq => ?_
  have habove : s.kextSrc <+: Deploy.kexts efiMount := heq ▸ List.prefix_append _ rest
  exact hbeside.above (habove.trans (List.prefix_append _ _))

theorem removed_dst {ok : Bool} (h : Executes now ⟨.removeR (kextDst efiMount), ok⟩ now') :
    (∀ q, ¬ kextDst efiMount <+: q → now'.node q = now.node q) ∧
      (ok = true → now'.node (kextDst efiMount) = none) := by
  cases h with
  | removed hpath hother => exact ⟨hother, fun _ => hpath _ List.prefix_rfl⟩
  | removedPart _ hother => exact ⟨hother, nofun⟩

/-- The copy into the place that was cleared. -/
theorem copied_dst {ok : Bool} (h : Executes now ⟨.copyR s.kextSrc (kextDst efiMount), ok⟩ now')
    (hfree : now.node (kextDst efiMount) = none) :
    (∀ q, ¬ kextDst efiMount <+: q → now'.node q = now.node q) ∧
      (ok = true → ∀ rest,
        now'.node (kextDst efiMount ++ rest) = now.node (s.kextSrc ++ rest)) := by
  have hdest : destination now s.kextSrc (kextDst efiMount) = kextDst efiMount :=
    destination_of_free hfree
  cases h with
  | copiedPart hother =>
    rw [hdest] at hother
    exact ⟨hother, nofun⟩
  | copied hcopy hkept hother =>
    rw [hdest] at hcopy hkept hother
    refine ⟨hother, fun _ rest => ?_⟩
    by_cases hnone : now.node (s.kextSrc ++ rest) = none
    · rw [hkept rest hnone, hnone]
      exact FileTree.none_below (List.prefix_append _ rest) hfree
    · exact hcopy rest hnone

/-! ## Requests -/

/-- The requests that can change a tree. -/
def Op.Changes : Op → Prop
  | .run (.shell _) | .run (.updateConfig _ _) => True
  | _ => False

theorem InstallStep.observed {e : DeployEvent} (h : InstallStep tools now e now')
    (hop : ¬ e.op.Changes) : now' = now ∧ Observes tools now e.op e.resp := by
  cases h with
  | shell _ => exact absurd trivial hop
  | updateConfig _ => exact absurd trivial hop
  | observe h => exact ⟨rfl, h⟩

theorem InstallStep.executed {command : Shell.Command} {ok : Bool}
    (h : InstallStep tools now ⟨.run (.shell command), ok⟩ now') :
    Executes now ⟨command, ok⟩ now' := by
  cases h with
  | shell h => exact h
  | observe h => exact h.elim

theorem InstallStep.rewritten {enableTestSip : String} {completed : Bool}
    (h : InstallStep tools now ⟨.run (.updateConfig (config efiMount) enableTestSip), completed⟩
      now') : Rewrites tools enableTestSip efiMount now completed now' := by
  generalize hcfg : config efiMount = cfg at h
  cases h with
  | updateConfig h =>
    obtain rfl := List.append_cancel_right (List.append_cancel_right hcfg)
    exact h
  | observe h => exact h.elim

/-- Two readings of one file that succeed agree. -/
theorem ReadsFile.agree {α : Type} {value : Content → Option α} {node : Option (Node Content)}
    {v w : α} (h : ReadsFile value node (some v)) (h' : ReadsFile value node (some w))
    (hlink : ∀ target, node ≠ some (.link target)) : v = w := by
  rcases h with ⟨target, hnode⟩ | hfailed | ⟨content, rfl, hv⟩
  · exact absurd hnode (hlink target)
  · cases hfailed
  rcases h' with ⟨target, hnode⟩ | hfailed | ⟨content', hnode, hw⟩
  · exact absurd hnode (hlink target)
  · cases hfailed
  · cases hnode
    exact Option.some.inj (hv.trans hw.symm)

theorem isRegular_iff {node : Option (Node Content)} :
    isRegular node = true ↔ ∃ content, node = some (.file content) := by
  cases node with
  | none => simp [isRegular]
  | some node => cases node <;> simp [isRegular]

/-! ## Rules for the steps -/

/-- The stops at a comparison that came out wrong. -/
def Stop.OfComparison : Stop → Prop
  | plistMismatch _ | hashMismatch | deployedPlistMissing _ | entryMissing => True
  | _ => False

variable {I : FileTree Content → Prop} {command : Command} {reason : Stop}

/-- A script that keeps the tree in `I`, returns with `Q`, and stops at no comparison. -/
abbrev Keeps {α : Type} (tools : Tools Content) (I : FileTree Content → Prop) (p : DeployM α)
    (Q : α → FileTree Content → Prop) (now : FileTree Content) : Prop :=
  Ensures (InstallStep tools) I p.run (Exit Q fun reason _ => ¬ reason.OfComparison) now

section Rules

variable {α β : Type} {Q : Unit → FileTree Content → Prop} {R : β → FileTree Content → Prop}

theorem keeps_check (hI : I now) (h : ∀ ok now', InstallStep tools now ⟨.run command, ok⟩ now' →
    I now' ∧ (ok = true → Q () now') ∧ (ok = false → ¬ reason.OfComparison)) :
    Keeps tools I (check command reason) Q now := by
  refine ensures_script_ask_bind hI fun ok now' hstep => ?_
  obtain ⟨hI', hok, hfailed⟩ := h ok now' hstep
  cases ok with
  | true => exact ensures_script_pure hI' (hok rfl)
  | false => exact ensures_stop hI' (hfailed rfl)

/-- The rule for a command whose failure ends the script. -/
theorem keeps_check_bind {f : Unit → DeployM β} (hI : I now) (hreason : ¬ reason.OfComparison)
    (h : ∀ ok now', InstallStep tools now ⟨.run command, ok⟩ now' →
      I now' ∧ (ok = true → Keeps tools I (f ()) R now')) :
    Keeps tools I (check command reason >>= f) R now := by
  refine ensures_script_bind (Q := fun _ now' => Keeps tools I (f ()) R now')
    (keeps_check hI fun ok now' hstep => ?_) fun _ _ hnext => hnext
  exact ⟨(h ok now' hstep).1, (h ok now' hstep).2, fun _ => hreason⟩

/-- The rule for a test. -/
theorem keeps_test_bind {f : Unit → DeployM β} (hop : ¬ (Op.run command).Changes) (hI : I now)
    (hreason : ¬ reason.OfComparison) (h : Observes tools now (.run command) true →
      Keeps tools I (f ()) R now) : Keeps tools I (check command reason >>= f) R now := by
  refine keeps_check_bind hI hreason fun ok now' hstep => ?_
  obtain ⟨rfl, hobserved⟩ := hstep.observed hop
  refine ⟨hI, ?_⟩
  rintro rfl
  exact h hobserved

theorem keeps_ask_bind {op : Op} {f : op.Resp → DeployM β} (hop : ¬ op.Changes) (hI : I now)
    (h : ∀ r, Observes tools now op r → Keeps tools I (f r) R now) :
    Keeps tools I (ask op >>= f) R now := by
  refine ensures_script_ask_bind hI fun r now' hstep => ?_
  obtain ⟨rfl, hobserved⟩ := hstep.observed hop
  exact h r hobserved

end Rules

/-! ## The comparison -/

/-- Two kexts without links, of the same content. -/
structure Alike (srcKext dstKext : Shell.Path) (now : FileTree Content) : Prop where
  same : ∀ rest, now.node (dstKext ++ rest) = now.node (srcKext ++ rest)
  links : ∀ rest target, now.node (srcKext ++ rest) ≠ some (.link target)

variable {srcKext dstKext : Shell.Path}

theorem compareKey_keeps (h : Alike srcKext dstKext now) (hI : I now) (key : String) :
    Keeps tools I (compareKey (srcKext ++ infoPlist) (dstKext ++ infoPlist) key)
      (fun _ now' => now' = now) now := by
  refine keeps_ask_bind id hI fun srcValue hsrc => ?_
  cases srcValue with
  | none => exact ensures_stop hI id
  | some srcValue =>
    refine keeps_ask_bind id hI fun dstValue hdst => ?_
    cases dstValue with
    | none => exact ensures_stop hI id
    | some dstValue =>
      have hdst : ReadsFile _ (now.node (dstKext ++ infoPlist)) (some dstValue) := hdst
      rw [h.same] at hdst
      obtain rfl : srcValue = dstValue := ReadsFile.agree hsrc hdst (h.links infoPlist)
      simp only [bne_self_eq_false]
      exact ensures_script_pure hI rfl

theorem compareHashes_keeps (h : Alike srcKext dstKext now) (hI : I now) :
    Keeps tools I (compareHashes (srcKext ++ executable) (dstKext ++ executable))
      (fun _ now' => now' = now) now := by
  refine keeps_ask_bind id hI fun srcHash hsrc => ?_
  cases srcHash with
  | none => exact ensures_stop hI id
  | some srcHash =>
    refine keeps_ask_bind id hI fun dstHash hdst => ?_
    cases dstHash with
    | none => exact ensures_stop hI id
    | some dstHash =>
      have hdst : ReadsFile _ (now.node (dstKext ++ executable)) (some dstHash) := hdst
      rw [h.same] at hdst
      obtain rfl : srcHash = dstHash := ReadsFile.agree hsrc hdst (h.links executable)
      simp only [bne_self_eq_false]
      exact ensures_script_pure hI rfl

theorem keeps_forM {ι : Type} {g : ι → DeployM PUnit} (items : List ι) (hI : I now)
    (h : ∀ i ∈ items, Keeps tools I (g i) (fun _ now' => now' = now) now) :
    Keeps tools I (items.forM g) (fun _ now' => now' = now) now := by
  induction items with
  | nil => exact ensures_script_pure hI rfl
  | cons i items ih =>
    refine ensures_script_bind (h i List.mem_cons_self) ?_
    rintro _ _ rfl
    exact ih fun j hj => h j (List.mem_cons_of_mem i hj)

/-- The tests and readings of a copy that is alike, and the property list that it has then. -/
theorem verifyDeployCopy_keeps (h : Alike srcKext dstKext now) (hI : I now) :
    Keeps tools I (verifyDeployCopy srcKext dstKext) (fun _ now' => now' = now ∧
      ∃ content, now.node (dstKext ++ infoPlist) = some (.file content)) now := by
  refine keeps_test_bind id hI id fun _ => ?_
  refine keeps_test_bind id hI id fun hplist => ?_
  refine keeps_test_bind id hI id fun _ => ?_
  refine keeps_test_bind id hI id fun _ => ?_
  refine ensures_script_bind (keeps_forM comparedKeys hI fun key _ => compareKey_keeps h hI key) ?_
  rintro _ _ rfl
  refine ensures_script_bind (compareHashes_keeps h hI) ?_
  rintro _ _ rfl
  refine keeps_test_bind id hI id fun _ => ?_
  refine keeps_check hI fun ok now' hstep => ?_
  obtain ⟨rfl, -⟩ := hstep.observed id
  refine ⟨hI, fun _ => ⟨rfl, ?_⟩, fun _ => id⟩
  rcases hplist with ⟨target, hlink⟩ | hfile
  · rw [h.same] at hlink
    exact absurd hlink (h.links infoPlist target)
  · exact isRegular_iff.mp hfile.symm

/-! ## The step 8 -/

/-- What the copy leaves, with the property list it was compared by. -/
structure Copied (s : Settings) (efiMount : Shell.Path) (tree now : FileTree Content) : Prop where
  copying : Copying efiMount tree now
  mirrors : Mirrors s efiMount tree now
  plist : ∃ content, now.node (kextDst efiMount ++ infoPlist) = some (.file content)

theorem copyKext_ensures (hoc : tree.node (ocDir efiMount) = some .directory)
    (hbeside : Beside (kextDst efiMount) s.kextSrc)
    (hlinks : ∀ rest target, tree.node (s.kextSrc ++ rest) ≠ some (.link target)) :
    Keeps tools (Installing s efiMount tree) (copyKext s efiMount)
      (fun _ now => Copied s efiMount tree now) tree := by
  have hrefl := copying_refl efiMount tree
  refine keeps_check_bind hrefl.installing id fun _ now₁ hmade => ?_
  have hcopying₁ : Copying efiMount tree now₁ := copying_mkdirP hmade.executed hoc
  refine ⟨hcopying₁.installing, fun _ => ?_⟩
  refine keeps_check_bind hcopying₁.installing id fun _ now₂ hremoved => ?_
  obtain ⟨hother₂, hfree⟩ := removed_dst hremoved.executed
  have hcopying₂ : Copying efiMount tree now₂ := hcopying₁.step hother₂
  refine ⟨hcopying₂.installing, fun hok₂ => ?_⟩
  refine keeps_check_bind hcopying₂.installing id fun _ now₃ hcopied => ?_
  obtain ⟨hother₃, hcopy⟩ := copied_dst hcopied.executed (hfree hok₂)
  have hcopying₃ : Copying efiMount tree now₃ := hcopying₂.step hother₃
  refine ⟨hcopying₃.installing, fun hok₃ => ?_⟩
  have hmirrors : Mirrors s efiMount tree now₃ := fun rest => by
    rw [hcopy hok₃ rest, hcopying₂.source hbeside rest]
  have halike : Alike s.kextSrc (kextDst efiMount) now₃ := by
    refine ⟨fun rest => ?_, fun rest target => ?_⟩
    · rw [hmirrors rest, hcopying₃.source hbeside rest]
    · rw [hcopying₃.source hbeside rest]
      exact hlinks rest target
  refine keeps_test_bind id hcopying₃.installing id fun _ => ?_
  refine (verifyDeployCopy_keeps halike hcopying₃.installing).mono (fun _ h => h) ?_
  intro r now₄ hexit
  cases r with
  | error reason => exact hexit
  | ok _ =>
    obtain ⟨rfl, hplist⟩ := hexit
    exact ⟨hcopying₃, hmirrors, hplist⟩

/-! ## The step 9 -/

/-- What the two steps leave. -/
structure Installed (tools : Tools Content) (s : Settings) (efiMount : Shell.Path)
    (tree : FileTree Content) (count : Nat) (now : FileTree Content) : Prop where
  mirrors : Mirrors s efiMount tree now
  config : ∃ content pl pl' content' stamp,
    tree.node (Deploy.config efiMount) = some (.file content) ∧
      tools.lib.load content = some pl ∧
      updatePl kextName kextExec s.enableTestSip pl = .ok pl' ∧
      tools.lib.dump pl' = some content' ∧
      now.node (Deploy.config efiMount) = some (.file content') ∧
      now.node (backup efiMount stamp) = some (.file content) ∧
      countMarvellKernelAddEntries tools.py pl' = .ok count ∧ 1 ≤ count

theorem contentAt_eq_some {content : Content} :
    contentAt tree q = some content ↔ tree.node q = some (.file content) := by
  unfold contentAt
  split
  · next hfile => rw [hfile]; simp
  · next hnot => simp only [reduceCtorEq, false_iff]; exact hnot content

/-- `update_config` leaves the kext alone. -/
theorem Rewrites.mirrors {completed : Bool}
    (h : Rewrites tools s.enableTestSip efiMount now completed now')
    (hm : Mirrors s efiMount tree now) : Mirrors s efiMount tree now' := by
  intro rest
  have hbelow : kextDst efiMount <+: kextDst efiMount ++ rest := List.prefix_append _ rest
  cases h with
  | intro _ _ _ _ _ _ _ hother =>
    rw [hother _ (fun h => not_dst_config (h ▸ hbelow)) fun h => not_dst_backup (h ▸ hbelow)]
    exact hm rest

theorem Rewrites.installing {completed : Bool}
    (h : Rewrites tools s.enableTestSip efiMount now completed now')
    (hc : Copied s efiMount tree now) : Installing s efiMount tree now' where
  other := by
    intro q hq hkexts hconfig hbackup
    cases h with
    | intro _ _ _ _ _ _ _ hother =>
      rw [hother q hconfig (hbackup _)]
      exact hc.copying.other q hq hkexts
  kexts := by
    intro hne
    cases h with
    | intro _ _ _ _ _ _ _ hother =>
      rw [hother _ config_ne_kexts.symm backup_ne_kexts.symm]
      exact hc.copying.kexts hne
  config := Or.inr (h.mirrors hc.mirrors)

theorem Rewrites.completed {content : Content}
    (h : Rewrites tools s.enableTestSip efiMount now true now')
    (hconfig : now.node (config efiMount) = some (.file content)) :
    ∃ pl pl' content' stamp, tools.lib.load content = some pl ∧
      updatePl kextName kextExec s.enableTestSip pl = .ok pl' ∧
      tools.lib.dump pl' = some content' ∧
      now'.node (config efiMount) = some (.file content') ∧
      now'.node (backup efiMount stamp) = some (.file content) := by
  cases h with
  | intro _ hconfig' hrun hreads hdisk hnew hbackup _ =>
    obtain rfl := Node.file.inj (Option.some.inj (hconfig'.symm.trans hconfig))
    obtain ⟨pl, pl', content', hload, hupdate, hdump, hafter⟩ :=
      updateConfig_completed hrun hreads
    rw [hdisk] at hafter
    subst hafter
    exact ⟨pl, pl', content', _, hload, hupdate, hdump, hnew, contentAt_eq_some.mp hbackup⟩

/-- The count of a config that was just changed. -/
theorem countMarvell_keeps {content : Content} {pl' : Plist} (hI : I now)
    (hnew : now.node (config efiMount) = some (.file content))
    (hload : tools.lib.load content = some pl')
    (hcounted : ∃ n, countMarvellKernelAddEntries tools.py pl' = .ok n ∧ 1 ≤ n) :
    Keeps tools I (countMarvell (config efiMount)) (fun count now' => now' = now ∧
      countMarvellKernelAddEntries tools.py pl' = .ok count ∧ 1 ≤ count) now := by
  obtain ⟨n, hn, hpos⟩ := hcounted
  refine keeps_ask_bind id hI fun count hcount => ?_
  cases count with
  | none => exact ensures_stop hI id
  | some count =>
    have hvalue : countMarvellEntries tools content = some n := by
      rw [countMarvellEntries, hload, Option.bind_eq_bind, Option.bind_some, hn]
      rfl
    have hread : ReadsFile (countMarvellEntries tools) (some (.file content)) (some count) :=
      hnew ▸ hcount
    obtain rfl : count = n :=
      hread.agree (Or.inr (Or.inr ⟨content, rfl, hvalue.symm⟩)) (fun _ => nofun)
    dsimp only
    rw [if_neg (Nat.not_le_of_lt hpos)]
    exact ensures_script_pure hI ⟨rfl, hn, hpos⟩

theorem changeConfig_ensures {content : Content} (hc : Copied s efiMount tree now)
    (hconfig : tree.node (config efiMount) = some (.file content)) :
    Keeps tools (Installing s efiMount tree) (changeConfig s efiMount)
      (fun count now => Installed tools s efiMount tree count now) now := by
  refine keeps_check_bind hc.copying.installing id fun completed now' hstep => ?_
  have hrewritten := hstep.rewritten
  have hI := hrewritten.installing hc
  have hmirrors := hrewritten.mirrors hc.mirrors
  refine ⟨hI, ?_⟩
  rintro rfl
  obtain ⟨pl, pl', content', stamp, hload, hupdate, hdump, hnew, hbackup⟩ :=
    hrewritten.completed (hc.copying.config.trans hconfig)
  refine keeps_test_bind id hI id fun _ => ?_
  refine ensures_script_bind (Q := fun _ now => now = now') (keeps_check hI ?_) ?_
  · intro found now₂ hstep
    obtain ⟨rfl, hobserved⟩ := hstep.observed id
    refine ⟨hI, fun _ => rfl, ?_⟩
    rintro rfl
    -- the property list is still the one that was compared
    obtain ⟨plist, hplist⟩ := hc.plist
    have hfile : now₂.node (kextDst efiMount ++ infoPlist) = some (.file plist) := by
      rw [hmirrors, ← hc.mirrors, hplist]
    have htests : Tests isRegular (now₂.node (kextDst efiMount ++ infoPlist)) false := hobserved
    rw [hfile] at htests
    rcases htests with ⟨target, hlink⟩ | hno
    · cases hlink
    · cases hno
  rintro _ _ rfl
  have hcounted := ((updatePl_updated hupdate).counted tools.py).1
  refine (countMarvell_keeps hI hnew (tools.lib.load_dump pl' content' hdump) hcounted).mono
    (fun _ h => h) ?_
  intro r last hexit
  cases r with
  | error reason => exact hexit
  | ok count =>
    obtain ⟨rfl, hcount⟩ := hexit
    exact ⟨hmirrors, content, pl, pl', content', stamp, hconfig, hload, hupdate, hdump, hnew,
      hbackup, hcount⟩

/--
At every moment of a run, nothing has changed on the disk but the kext on the partition, and the
config only beside a kext that mirrors the build. A run that ends well leaves the kext mirrored and
the change made to the config, with its old content in the backup. One that ends early does so at a
command that failed or a file that could not be read: the comparisons always agree.
-/
theorem install_mirrors {content : Content} (hoc : tree.node (ocDir efiMount) = some .directory)
    (hconfig : tree.node (config efiMount) = some (.file content))
    (hbeside : Beside (kextDst efiMount) s.kextSrc)
    (hlinks : ∀ rest target, tree.node (s.kextSrc ++ rest) ≠ some (.link target))
    {t : List DeployEvent} {r : Except Stop Nat} (h : Runs (install s efiMount).run t r) :
    (∀ u now, u <+: t → Effect.Path (InstallStep tools) tree u now →
      Installing s efiMount tree now) ∧
    ∀ now, Effect.Path (InstallStep tools) tree t now →
      (∀ count, r = .ok count → Installed tools s efiMount tree count now) ∧
      ∀ reason, r = .error reason → ¬ reason.OfComparison := by
  have hensures : Keeps tools (Installing s efiMount tree) (install s efiMount)
      (fun count now => Installed tools s efiMount tree count now) tree :=
    ensures_script_bind (copyKext_ensures hoc hbeside hlinks) fun _ _ hc =>
      changeConfig_ensures hc hconfig
  refine ⟨fun u now hu hpath => hensures.always t r u now h hu hpath, fun now hpath => ?_⟩
  have hexit := hensures.post t r now h hpath
  constructor
  · rintro count rfl
    exact hexit
  · rintro reason rfl
    exact hexit

/-! ## A run -/

def builtSettings : Settings where
  efiDisk := "disk0s1"
  repo := ["src"]
  syncRef := ""
  enableTestSip := "1"
  doBless := "0"
  autoRepairEfi := "1"
  quietBuild := "1"
  unmountAfter := "0"
  failOnD := "0"

def valueTools : Tools (Option Plist) where
  lib := valueLib
  py := asciiText
  printed := asciiText.str
  sha256 := fun _ => "0"

/-- The property list of the kext that was built. -/
def builtPlist : Plist := .dict (comparedKeys.map fun key => (key, .string "1"))

def builtContents : Shell.Path := builtSettings.kextSrc ++ ["Contents"]

def builtDirs : FileTree (Option Plist) :=
  (FileTree.empty.makeDirs (builtContents ++ ["MacOS"])).makeDirs (kexts fallbackMount)

/-- The build, and a config in the mounted partition. -/
def builtTree : FileTree (Option Plist) :=
  ((builtDirs.write builtContents "Info.plist" (some builtPlist) rfl nofun).write
    (builtContents ++ ["MacOS"]) kextExec none rfl nofun).write
      (ocDir fallbackMount) "config.plist" (some (.dict [])) rfl nofun

def installRun : List DeployEvent := ((install builtSettings fallbackMount).run.exec smooth []).1

def copiedTree : FileTree (Option Plist) :=
  ((builtTree.makeDirs (kexts fallbackMount)).remove (kextDst fallbackMount)).copy
    builtSettings.kextSrc (kexts fallbackMount) kextName rfl

def installedTree : FileTree (Option Plist) :=
  (copiedTree.write (ocDir fallbackMount) "config.plist.bak-20260101-000000" (some (.dict [])) rfl
    nofun).write (ocDir fallbackMount) "config.plist" (some freshConfig) rfl
      (fun _ h => ⟨_, (Option.some.inj h).symm⟩)

theorem rewrites_installed :
    Rewrites valueTools "1" fallbackMount copiedTree true installedTree := by
  have hupdate : updatePl kextName kextExec "1" (.dict []) = .ok freshConfig := rfl
  refine Rewrites.intro "20260101-000000" rfl (runs_smooth rfl hupdate rfl)
    (readsDisk_smooth _ _ _ _) rfl rfl rfl ?_
  intro q hconfig hbackup
  exact (if_neg hconfig).trans (if_neg hbackup)

theorem path_installed :
    Effect.Path (InstallStep valueTools) builtTree installRun installedTree := by
  have hdirs : ∀ q ∈ (kexts fallbackMount).inits, builtTree.node q = none ∨
      builtTree.node q = some .directory := by
    refine List.forall_iff_forall_mem.mp ?_
    exact ⟨.inr rfl, .inr rfl, .inr rfl, .inr rfl, .inr rfl, .inr rfl⟩
  refine Effect.Path.cons (.shell (executes_makeDirs hdirs)) ?_
  refine Effect.Path.cons (.shell (executes_remove _ _)) ?_
  refine Effect.Path.cons (.shell (executes_copy rfl rfl)) ?_
  -- `sync`, and the tests of the copy
  refine Effect.Path.cons (.observe trivial) ?_
  refine Effect.Path.cons (.observe (Or.inr rfl)) ?_
  refine Effect.Path.cons (.observe (Or.inr rfl)) ?_
  refine Effect.Path.cons (.observe nofun) ?_
  refine Effect.Path.cons (.observe nofun) ?_
  -- the keys, the hashes and the identifiers
  iterate 10 refine Effect.Path.cons (.observe (Or.inr (Or.inr ⟨_, rfl, rfl⟩))) ?_
  refine Effect.Path.cons (.observe trivial) ?_
  refine Effect.Path.cons (.observe trivial) ?_
  refine Effect.Path.cons (.updateConfig rewrites_installed) ?_
  refine Effect.Path.cons (.observe trivial) ?_
  refine Effect.Path.cons (.observe (Or.inr rfl)) ?_
  have hcount : countMarvellEntries valueTools (some freshConfig) = some 1 := by decide +kernel
  exact Effect.Path.single (.observe (Or.inr (Or.inr ⟨_, rfl, hcount.symm⟩)))

theorem install_mirrors_installed :
    Installed valueTools builtSettings fallbackMount builtTree 1 installedTree := by
  have hrun : Runs (install builtSettings fallbackMount).run installRun (.ok 1) :=
    Program.runs_exec smooth [] _
  have hlinks : ∀ rest target,
      builtTree.node (builtSettings.kextSrc ++ rest) ≠ some (.link target) := by
    intro rest target h
    simp only [builtTree, builtDirs, FileTree.write, FileTree.makeDirs, FileTree.empty] at h
    split_ifs at h <;> cases h
  exact ((install_mirrors rfl rfl ⟨by decide, by decide⟩ hlinks hrun).2 installedTree
    path_installed).1 1 rfl

end Deploy

end Scripts

end MarvellW8897
