import MarvellW8897.Properties.Removals

/-!
# What `cleanup_marvell_auxkc.sh` removes

* `isSafeRemove_below` — what lies under a path that may be removed may be removed too.
* `cleanup_ensures` — what holds at every moment of a run.
* `cleanup_spec` — what disappears, where it is backed up, and what a failed copy leaves.
* `later_candidate_removed` — a later candidate can be gone when a copy fails.
-/

namespace MarvellW8897

namespace Scripts

open Effect Shell

variable {File : Type} {tree now : FileTree File} {settings : Settings} {p q : Shell.Path}
  {candidates safeRemove manualOnly : List Shell.Path}

/-! ## The two kinds of candidates -/

theorem text_append (p q : Shell.Path) : text (p ++ q) = text p ++ text q := List.flatMap_append

theorem safePatterns_star :
    ∀ pattern ∈ safePatterns, (Glob.ofString pattern).getLast? = some .star := by
  decide +kernel

/-- Both patterns end in a star. -/
theorem isSafeRemove_below (hp : isSafeRemove p = true) (h : p <+: q) :
    isSafeRemove q = true := by
  obtain ⟨rest, rfl⟩ := h
  obtain ⟨pattern, hmem, haccepts⟩ := List.any_eq_true.mp hp
  refine List.any_eq_true.mpr ⟨pattern, hmem, ?_⟩
  rw [text_append]
  exact Glob.accepts_append (safePatterns_star pattern hmem) _ haccepts

/-- What the loop that sorts the candidates makes of them. -/
structure Classified (tree : FileTree File) (candidates safeRemove manualOnly : List Shell.Path) :
    Prop where
  safe : safeRemove.Sublist (candidates.filter isSafeRemove)
  manual : manualOnly.Sublist (candidates.filter fun p => !isSafeRemove p)
  found : ∀ p ∈ safeRemove, tree.node p ≠ none

theorem classify_ensures (tree : FileTree File) (candidates : List Shell.Path) :
    Ensures Executes (fun now => now = tree) (classify candidates)
      (fun lists now => now = tree ∧ Classified tree candidates lists.1 lists.2) tree := by
  induction candidates with
  | nil => exact ensures_pure rfl ⟨rfl, List.Sublist.refl _, List.Sublist.refl _, by simp⟩
  | cons p candidates ih =>
    refine ensures_ask_bind rfl ?_
    intro found now hfound
    have hnow : now = tree ∧ (found = true → tree.node p ≠ none) := by
      cases hfound with
      | found h => exact ⟨rfl, fun _ => h⟩
      | missing _ => exact ⟨rfl, by simp⟩
    obtain ⟨rfl, hfound⟩ := hnow
    refine ih.bind ?_
    rintro ⟨safeRemove, manualOnly⟩ now' ⟨rfl, hclassified⟩
    have hsublist := List.sublist_cons_self p candidates
    cases found with
    | false =>
      exact ensures_pure rfl ⟨rfl, hclassified.safe.trans (hsublist.filter _),
        hclassified.manual.trans (hsublist.filter _), hclassified.found⟩
    | true =>
      cases hsafe : isSafeRemove p with
      | true =>
        dsimp only
        rw [if_neg (by simp), if_pos rfl]
        refine ensures_pure rfl ⟨rfl, ?_, hclassified.manual.trans (hsublist.filter _), ?_⟩
        · rw [List.filter_cons_of_pos hsafe]
          exact hclassified.safe.cons_cons p
        · exact List.forall_mem_cons.mpr ⟨hfound rfl, hclassified.found⟩
      | false =>
        dsimp only
        rw [if_neg (by simp), if_neg (by simp)]
        refine ensures_pure rfl ⟨rfl, hclassified.safe.trans (hsublist.filter _), ?_,
          hclassified.found⟩
        rw [List.filter_cons_of_pos (by simp [hsafe])]
        exact hclassified.manual.cons_cons p

/-! ## What a run may do -/

/-- The candidates as `find` and `awk` give them, and a backup root outside the directories that
`find` searches, without the directory of this run. -/
structure Prepared (settings : Settings) (candidates : List Shell.Path) (tree : FileTree File) :
    Prop where
  ancestorsFirst : candidates.Pairwise fun p q => ¬ q <+: p
  inSearched : ∀ p ∈ candidates, ∃ root ∈ searched, root <+: p
  outside : ∀ root ∈ searched, ¬ root <+: settings.backupRoot
  fresh : tree.node settings.runBackup = none

/-- What has disappeared from the tree lay under a safe candidate and is in the backup of this run;
the rest is as it was. -/
structure Harmless (settings : Settings) (candidates : List Shell.Path) (tree now : FileTree File) :
    Prop where
  disappeared : ∀ q, tree.node q ≠ none → now.node q = none →
    (∃ p ∈ candidates, isSafeRemove p = true ∧ p <+: q) ∧
      now.node (settings.runBackup ++ q) = tree.node q
  manualOnly : ∀ q, tree.node q ≠ none → now.node q = none →
    ∀ p ∈ candidates, isSafeRemove p = false → ¬ q <+: p
  untouched : ∀ q, tree.node q ≠ none → now.node q ≠ none → now.node q = tree.node q
  dryRun : settings.doApply = false → ∀ p ∈ candidates, InPlace tree now p

theorem BackedUp.harmless (h : BackedUp settings.runBackup safeRemove tree now)
    (hsafe : safeRemove ⊆ candidates.filter isSafeRemove)
    (hdry : settings.doApply = false → ∀ p ∈ candidates, InPlace tree now p) :
    Harmless settings candidates tree now := by
  have hremoved : ∀ q, tree.node q ≠ none → now.node q = none →
      (∃ p ∈ candidates, isSafeRemove p = true ∧ p <+: q) ∧
        now.node (settings.runBackup ++ q) = tree.node q := by
    intro q hq hnone
    rcases h.existing q hq with hsame | ⟨-, ⟨p, hp, hpq⟩, hcopy⟩
    · exact absurd (hsame.symm.trans hnone) hq
    · obtain ⟨hmem, hsafe⟩ := List.mem_filter.mp (hsafe hp)
      exact ⟨⟨p, hmem, hsafe, hpq⟩, hcopy⟩
  refine ⟨hremoved, ?_, ?_, hdry⟩
  · intro q hq hnone m _ hmanual hqm
    obtain ⟨⟨p, -, hp, hpq⟩, -⟩ := hremoved q hq hnone
    rw [isSafeRemove_below hp (hpq.trans hqm)] at hmanual
    cases hmanual
  · intro q hq hne
    rcases h.existing q hq with hsame | ⟨hnone, -, -⟩
    · exact hsame
    · exact absurd hnone hne

theorem backedUp_refl (runBackup : Shell.Path) (tree : FileTree File) :
    BackedUp runBackup [] tree tree where
  existing := fun _ _ => Or.inl rfl
  created := fun _ hnone hne => absurd hnone hne

theorem Prepared.not_above (h : Prepared settings candidates tree) (hp : p ∈ candidates)
    (hq : p <+: q) : ¬ q <+: settings.backupRoot := by
  intro hroot
  obtain ⟨root, hmem, hpre⟩ := h.inSearched p hp
  exact h.outside root hmem ((hpre.trans hq).trans hroot)

/-! ## The script -/

/-- The tree after `mkdir -p "$BACKUP_ROOT"`. -/
structure RootMade (settings : Settings) (tree now : FileTree File) : Prop where
  adds : Adds settings.runBackup tree now
  other : ∀ q, ¬ q <+: settings.backupRoot → now.node q = tree.node q

theorem Prepared.rootMade_inPlace (h : Prepared settings candidates tree)
    (hroot : RootMade settings tree now) (hp : p ∈ candidates) : InPlace tree now p :=
  fun _ hq => hroot.other _ (h.not_above hp hq)

theorem RootMade.backedUp (hroot : RootMade settings tree now) :
    BackedUp settings.runBackup [] tree now :=
  (backedUp_refl settings.runBackup tree).adds hroot.adds List.prefix_rfl (by simp)

/-- Before the loop nothing has disappeared. -/
theorem Prepared.rootMade_harmless (h : Prepared settings candidates tree)
    (hroot : RootMade settings tree now) : Harmless settings candidates tree now :=
  hroot.backedUp.harmless (List.nil_subset _) fun _ _ hp => h.rootMade_inPlace hroot hp

theorem runBackup_not_above (settings : Settings) :
    ¬ settings.runBackup <+: settings.backupRoot :=
  fun h => absurd h.length_le (by simp [Settings.runBackup])

/-- The safe candidates that are found can be the list of the loop. -/
theorem Prepared.removable (h : Prepared settings candidates tree)
    (hroot : RootMade settings tree now)
    (hlists : Classified now candidates safeRemove manualOnly) :
    Removable settings.runBackup tree safeRemove := by
  have hsublist : safeRemove.Sublist candidates := hlists.safe.trans List.filter_sublist
  have hfound : ∀ p ∈ safeRemove, tree.node p ≠ none := by
    intro p hp
    rw [← h.rootMade_inPlace hroot (hsublist.subset hp) p List.prefix_rfl]
    exact hlists.found p hp
  refine ⟨h.ancestorsFirst.sublist hsublist, fun p hp => ⟨?_, ?_⟩, hfound⟩
  · intro habove
    rcases List.prefix_concat_iff.mp habove with rfl | hprefix
    · exact hfound _ hp h.fresh
    · exact h.not_above (hsublist.subset hp) List.prefix_rfl hprefix
  · intro hinside
    exact hfound p hp (FileTree.none_below hinside h.fresh)

theorem applyMode_ensures (h : Prepared settings candidates tree)
    (hroot : RootMade settings tree now)
    (hlists : Classified now candidates safeRemove manualOnly) :
    Ensures Executes (Harmless settings candidates tree) (applyMode settings safeRemove)
      (fun outcome now' => ∀ p target, outcome = .stopped (.copyR p target) →
        CopyFailed safeRemove p tree now') now := by
  have hlist := h.removable hroot hlists
  have hstart := h.rootMade_harmless hroot
  unfold applyMode
  cases happly : settings.doApply with
  | false =>
    exact ensures_pure hstart (by rintro _ _ ⟨⟩)
  | true =>
    cases hempty : safeRemove.isEmpty with
    | true => exact ensures_pure hstart (by rintro _ _ ⟨⟩)
    | false =>
      refine ensures_ask_bind hstart ?_
      intro made now' hmade
      have hbackedUp : BackedUp settings.runBackup [] tree now' :=
        hroot.backedUp.adds (adds_mkdirP hmade List.prefix_rfl) List.prefix_rfl (by simp)
      have hdry : ∀ {now : FileTree File}, settings.doApply = false → ∀ p ∈ candidates,
          InPlace tree now p := by
        intro now hfalse
        rw [happly] at hfalse
        cases hfalse
      cases made with
      | false =>
        exact ensures_pure (hbackedUp.harmless (List.nil_subset _) hdry) (by rintro _ _ ⟨⟩)
      | true =>
        have hstate : LoopState settings.runBackup [] tree now' := by
          refine ⟨hbackedUp, fun q hq => Or.inl ?_, by simp⟩
          by_contra hne
          have hbelow : ¬ settings.runBackup ++ q <+: settings.runBackup := by
            intro hprefix
            have hlength := hprefix.length_le
            rw [List.length_append] at hlength
            exact hne (List.length_eq_zero_iff.mp (by omega))
          have hroot' : ¬ settings.runBackup ++ q <+: settings.backupRoot := fun hprefix =>
            runBackup_not_above settings ((List.prefix_append _ q).trans hprefix)
          refine hq ?_
          rw [mkdirP_other hmade hbelow, hroot.other _ hroot']
          exact FileTree.none_below (List.prefix_append _ q) h.fresh
        refine (applyRemovals_ensures [] safeRemove hlist hstate).mono ?_ ?_
        · exact fun now hb => hb.harmless hlists.safe.subset hdry
        · exact fun _ _ hpost => hpost

theorem cleanup_ensures (h : Prepared settings candidates tree) :
    Ensures Executes (Harmless settings candidates tree) (cleanup settings candidates)
      (fun report now => report.safeRemove.Sublist (candidates.filter isSafeRemove) ∧
        report.manualOnly.Sublist (candidates.filter fun p => !isSafeRemove p) ∧
        ∀ p target, report.outcome = .stopped (.copyR p target) →
          CopyFailed report.safeRemove p tree now) tree := by
  have hrefl : RootMade settings tree tree :=
    ⟨⟨fun _ _ => rfl, fun _ hnone hne => absurd hnone hne⟩, fun _ _ => rfl⟩
  refine ensures_ask_bind (h.rootMade_harmless hrefl) ?_
  intro made now hmade
  have hroot : RootMade settings tree now :=
    ⟨adds_mkdirP hmade (List.prefix_append _ _), fun _ hq => mkdirP_other hmade hq⟩
  cases made with
  | false =>
    refine ensures_pure (h.rootMade_harmless hroot) ⟨List.nil_sublist _, List.nil_sublist _, ?_⟩
    rintro _ _ ⟨⟩
  | true =>
    have hclassify := (classify_ensures now candidates).mono
      (fun _ hnow => hnow ▸ h.rootMade_harmless hroot) fun _ _ hpost => hpost
    refine hclassify.bind ?_
    rintro ⟨safeRemove, manualOnly⟩ now' ⟨rfl, hlists⟩
    refine (applyMode_ensures h hroot hlists).last.bind ?_
    rintro outcome now'' ⟨hend, hfailed⟩
    exact ensures_pure hend ⟨hlists.safe, hlists.manual, hfailed⟩

/-! ## A copy that fails -/

/-- A copy that fails is the last command of the loop. -/
theorem applyRemovals_stops {runBackup p target : Shell.Path} {paths : List Shell.Path}
    {t : List ShellEvent} {outcome : Outcome} (h : Runs (applyRemovals runBackup paths) t outcome)
    (he : ⟨.copyR p target, false⟩ ∈ t) :
    outcome = .stopped (.copyR p target) ∧ ∃ u, t = u ++ [⟨.copyR p target, false⟩] := by
  induction paths generalizing t with
  | nil =>
    obtain ⟨rfl, -⟩ := runs_pure.mp h
    cases he
  | cons x paths ih =>
    obtain ⟨found, t₁, rfl, h₁⟩ := runs_ask_bind.mp h
    have he₁ : ⟨.copyR p target, false⟩ ∈ t₁ := by simpa using he
    cases found with
    | false =>
      obtain ⟨hout, u, rfl⟩ := ih h₁ he₁
      exact ⟨hout, _ :: u, rfl⟩
    | true =>
      obtain ⟨made, t₂, rfl, h₂⟩ := runs_ask_bind.mp h₁
      have he₂ : ⟨.copyR p target, false⟩ ∈ t₂ := by simpa using he₁
      cases made with
      | false =>
        obtain ⟨rfl, -⟩ := runs_pure.mp h₂
        cases he₂
      | true =>
        obtain ⟨copied, t₃, rfl, h₃⟩ := runs_ask_bind.mp h₂
        cases copied with
        | false =>
          obtain ⟨rfl, rfl⟩ := runs_pure.mp h₃
          obtain ⟨rfl, rfl⟩ : p = x ∧ target = runBackup ++ x := by simpa using he₂
          exact ⟨rfl, [_, _], rfl⟩
        | true =>
          have he₃ : ⟨.copyR p target, false⟩ ∈ t₃ := by simpa using he₂
          obtain ⟨removed, t₄, rfl, h₄⟩ := runs_ask_bind.mp h₃
          have he₄ : ⟨.copyR p target, false⟩ ∈ t₄ := by simpa using he₃
          cases removed with
          | false =>
            obtain ⟨rfl, -⟩ := runs_pure.mp h₄
            cases he₄
          | true =>
            obtain ⟨hout, u, rfl⟩ := ih h₄ he₄
            exact ⟨hout, _ :: _ :: _ :: _ :: u, rfl⟩

theorem classify_uses (candidates : List Shell.Path) :
    Uses (fun command => ∃ p, command = .exists p) (classify candidates) := by
  induction candidates with
  | nil => exact uses_pure _
  | cons p candidates ih =>
    refine Uses.bind (uses_ask ⟨p, rfl⟩) fun found => ih.bind ?_
    rintro ⟨safeRemove, manualOnly⟩
    exact Uses.ite (uses_pure _) (Uses.ite (uses_pure _) (uses_pure _))

/-- A copy that fails is the last command of the script. -/
theorem cleanup_stops {p target : Shell.Path} {t : List ShellEvent} {report : Report}
    (h : Runs (cleanup settings candidates) t report) (he : ⟨.copyR p target, false⟩ ∈ t) :
    report.outcome = .stopped (.copyR p target) ∧ ∃ u, t = u ++ [⟨.copyR p target, false⟩] := by
  obtain ⟨made, t₁, rfl, h₁⟩ := runs_ask_bind.mp h
  have he₁ : ⟨.copyR p target, false⟩ ∈ t₁ := by simpa using he
  cases made with
  | false =>
    obtain ⟨rfl, -⟩ := runs_pure.mp h₁
    cases he₁
  | true =>
    obtain ⟨t₂, ⟨safeRemove, manualOnly⟩, t₃, rfl, hclassify, h₃⟩ := runs_bind.mp h₁
    obtain ⟨t₄, outcome, t₅, rfl, happly, h₅⟩ := runs_bind.mp h₃
    obtain ⟨rfl, rfl⟩ := runs_pure.mp h₅
    have hnot : ⟨.copyR p target, false⟩ ∉ t₂ := by
      intro hmem
      obtain ⟨q, hq⟩ := classify_uses candidates t₂ _ hclassify _ hmem
      cases hq
    have he₄ : ⟨.copyR p target, false⟩ ∈ t₄ := by simpa [hnot] using he₁
    unfold applyMode at happly
    split at happly
    · obtain ⟨rfl, -⟩ := runs_pure.mp happly
      cases he₄
    split at happly
    · obtain ⟨rfl, -⟩ := runs_pure.mp happly
      cases he₄
    obtain ⟨made', t₆, rfl, h₆⟩ := runs_ask_bind.mp happly
    have he₆ : ⟨.copyR p target, false⟩ ∈ t₆ := by simpa using he₄
    cases made' with
    | false =>
      obtain ⟨rfl, -⟩ := runs_pure.mp h₆
      cases he₆
    | true =>
      obtain ⟨hout, u, rfl⟩ := applyRemovals_stops h₆ he₆
      refine ⟨hout, ⟨.mkdirP settings.backupRoot, true⟩ ::
        (t₂ ++ ⟨.mkdirP settings.runBackup, true⟩ :: u), ?_⟩
      simp

/--
At every moment of a run, what has disappeared lay under a safe candidate and is in the backup of
the run, no candidate for manual action lies at or under it, and the rest is as it was. A copy that
fails is the last command; the candidate and the later ones are in place, but for those under a
candidate that was removed before.
-/
theorem cleanup_spec (settings : Settings) (candidates : List Shell.Path) (tree : FileTree File)
    (h : Prepared settings candidates tree) {t : List ShellEvent} {report : Report}
    (hr : Runs (cleanup settings candidates) t report) :
    (∀ u now, u <+: t → Effect.Path Executes tree u now →
      Harmless settings candidates tree now) ∧
    ∀ now, Effect.Path Executes tree t now →
      report.safeRemove.Sublist (candidates.filter isSafeRemove) ∧
      report.manualOnly.Sublist (candidates.filter fun p => !isSafeRemove p) ∧
      ∀ p target, ⟨.copyR p target, false⟩ ∈ t →
        (∃ u, t = u ++ [⟨.copyR p target, false⟩]) ∧ CopyFailed report.safeRemove p tree now := by
  have hensures := cleanup_ensures h
  refine ⟨fun u now hu hp => hensures.always t report u now hr hu hp, fun now hp => ?_⟩
  obtain ⟨hsafe, hmanual, hfailed⟩ := hensures.post t report now hr hp
  refine ⟨hsafe, hmanual, fun p target he => ?_⟩
  obtain ⟨hout, hlast⟩ := cleanup_stops hr he
  exact ⟨hlast, hfailed p target hout⟩

/-! ## A run in which a copy fails -/

/-- The two lists, if every candidate is found. -/
theorem runs_classify_found (candidates : List Shell.Path) :
    Runs (classify candidates) (candidates.map fun p => ⟨.exists p, true⟩)
      (candidates.filter isSafeRemove, candidates.filter fun p => !isSafeRemove p) := by
  induction candidates with
  | nil => exact Runs.pure _
  | cons p candidates ih =>
    refine runs_ask_bind.mpr ⟨true, _, rfl, ?_⟩
    refine runs_bind.mpr ⟨_, _, [], (List.append_nil _).symm, ih, ?_⟩
    cases hsafe : isSafeRemove p with
    | true =>
      dsimp only
      rw [if_neg (by simp), if_pos rfl, runs_pure, List.filter_cons_of_pos hsafe,
        List.filter_cons_of_neg (by simp [hsafe])]
      exact ⟨rfl, rfl⟩
    | false =>
      dsimp only
      rw [if_neg (by simp), if_neg (by simp), runs_pure, List.filter_cons_of_neg (by simp [hsafe]),
        List.filter_cons_of_pos (by simp [hsafe])]
      exact ⟨rfl, rfl⟩

/-- A turn of the loop in which every command succeeds. -/
theorem runs_applyRemovals_cons {runBackup p : Shell.Path} {paths : List Shell.Path}
    {t : List ShellEvent} {outcome : Outcome} (h : Runs (applyRemovals runBackup paths) t outcome) :
    Runs (applyRemovals runBackup (p :: paths)) (⟨.exists p, true⟩ ::
      ⟨.mkdirP (runBackup ++ p).dropLast, true⟩ :: ⟨.copyR p (runBackup ++ p), true⟩ ::
        ⟨.removeR p, true⟩ :: t) outcome := by
  refine runs_ask_bind.mpr ⟨true, _, rfl, ?_⟩
  refine runs_ask_bind.mpr ⟨true, _, rfl, ?_⟩
  refine runs_ask_bind.mpr ⟨true, _, rfl, ?_⟩
  refine runs_ask_bind.mpr ⟨true, _, rfl, ?_⟩
  exact h

def stash : Shell.Path :=
  ["private", "var", "db", "KernelExtensionManagement", "AuxKC", "1", "StashedExtensions"]

def currentKext : Shell.Path := stash ++ ["MarvellW8897Kext.kext"]

def olderKext : Shell.Path := stash ++ ["MarvellW8897.kext"]

/-- A file that the fourth `find` looks for, inside the first extension. -/
def kcgenPlist : Shell.Path := currentKext ++ ["com.apple.kcgen.instructions.plist"]

def stashTree : FileTree Unit where
  node := fun q =>
    if q = kcgenPlist then some (.file ()) else
      if q <+: currentKext ∨ q = olderKext then some .directory else none
  closed := by
    intro q name h
    by_cases hfile : q ++ [name] = kcgenPlist
    · obtain ⟨rfl, -⟩ := List.append_inj' hfile rfl
      decide
    · rw [if_neg hfile] at h
      by_cases hdir : q ++ [name] <+: currentKext ∨ q ++ [name] = olderKext
      · have hq : q <+: stash := by
          rcases hdir with hprefix | heq
          · rcases List.prefix_concat_iff.mp hprefix with heq | hprefix
            · rw [(List.append_inj' heq rfl).1]
            · exact (List.prefix_append q _).trans hprefix
          · rw [(List.append_inj' heq rfl).1]
        have hall : ∀ x ∈ stash.inits, (if x = kcgenPlist then some (Node.file ()) else
            if x <+: currentKext ∨ x = olderKext then some .directory else none) =
              some .directory := by
          decide
        exact hall q ((List.mem_inits q stash).mpr hq)
      · rw [if_neg hdir] at h
        exact absurd rfl h

def stashSettings : Settings := ⟨true, ["out"], "20260101-000000"⟩

/-- The first `find` gives the extensions, the fourth one the file. -/
def stashCandidates : List Shell.Path := [currentKext, olderKext, kcgenPlist]

def backupStash : Shell.Path := stashSettings.runBackup ++ stash

/-- The tree when the directories of the backup are made. -/
def backupTree : FileTree Unit :=
  ((stashTree.makeDirs ["out"]).makeDirs stashSettings.runBackup).makeDirs backupStash

theorem directory_backupStash : backupTree.node backupStash = some .directory :=
  FileTree.makeDirs_self _ backupStash

/-- The tree when the first extension is backed up and removed, and the second copy has failed. -/
def stashLeft : FileTree Unit :=
  ((backupTree.copy currentKext backupStash "MarvellW8897Kext.kext"
    directory_backupStash).remove currentKext).makeDirs backupStash

def stashRun : List ShellEvent :=
  [⟨.mkdirP ["out"], true⟩, ⟨.exists currentKext, true⟩, ⟨.exists olderKext, true⟩,
    ⟨.exists kcgenPlist, true⟩, ⟨.mkdirP stashSettings.runBackup, true⟩,
    ⟨.exists currentKext, true⟩, ⟨.mkdirP backupStash, true⟩,
    ⟨.copyR currentKext (stashSettings.runBackup ++ currentKext), true⟩,
    ⟨.removeR currentKext, true⟩, ⟨.exists olderKext, true⟩, ⟨.mkdirP backupStash, true⟩,
    ⟨.copyR olderKext (stashSettings.runBackup ++ olderKext), false⟩]

def stashReport : Report :=
  ⟨stashCandidates, [], .stopped (.copyR olderKext (stashSettings.runBackup ++ olderKext))⟩

theorem prepared_stash : Prepared stashSettings stashCandidates stashTree :=
  ⟨by decide, by decide, by decide, by decide⟩

theorem runs_stash : Runs (cleanup stashSettings stashCandidates) stashRun stashReport := by
  have hclassify := runs_classify_found stashCandidates
  have hsafe : stashCandidates.filter isSafeRemove = stashCandidates := by decide +kernel
  have hmanual : (stashCandidates.filter fun p => !isSafeRemove p) = [] := by decide +kernel
  rw [hsafe, hmanual] at hclassify
  have hfailed : Runs (applyRemovals stashSettings.runBackup [olderKext, kcgenPlist])
      [⟨.exists olderKext, true⟩, ⟨.mkdirP backupStash, true⟩,
        ⟨.copyR olderKext (stashSettings.runBackup ++ olderKext), false⟩] stashReport.outcome := by
    refine runs_ask_bind.mpr ⟨true, _, rfl, ?_⟩
    refine runs_ask_bind.mpr ⟨true, _, rfl, ?_⟩
    refine runs_ask_bind.mpr ⟨false, _, rfl, ?_⟩
    exact Runs.pure _
  have happly : Runs (applyMode stashSettings stashCandidates) _ stashReport.outcome :=
    runs_ask_bind.mpr ⟨true, _, rfl, runs_applyRemovals_cons hfailed⟩
  have hreport : Runs (pure stashReport : ShellM Report) [] stashReport := Runs.pure _
  exact runs_ask_bind.mpr ⟨true, _, rfl, hclassify.bind (happly.bind hreport)⟩

theorem path_stash : Effect.Path Executes stashTree stashRun stashLeft := by
  have hfree : backupTree.node (backupStash ++ ["MarvellW8897Kext.kext"]) = none := by decide
  refine Effect.Path.cons (executes_makeDirs (by decide)) ?_
  refine Effect.Path.cons (.found (by decide)) ?_
  refine Effect.Path.cons (.found (by decide)) ?_
  refine Effect.Path.cons (.found (by decide)) ?_
  refine Effect.Path.cons (executes_makeDirs (by decide)) ?_
  refine Effect.Path.cons (.found (by decide)) ?_
  refine Effect.Path.cons (executes_makeDirs (by decide)) ?_
  refine Effect.Path.cons (executes_copy directory_backupStash hfree) ?_
  refine Effect.Path.cons (executes_remove _ currentKext) ?_
  refine Effect.Path.cons (.found (by decide)) ?_
  refine Effect.Path.cons (executes_makeDirs (by decide)) ?_
  exact Effect.Path.single (.copiedPart fun _ _ => rfl)

theorem cleanup_spec_stash : Harmless stashSettings stashCandidates stashTree stashLeft ∧
    CopyFailed stashCandidates olderKext stashTree stashLeft := by
  obtain ⟨halways, hend⟩ := cleanup_spec stashSettings stashCandidates stashTree prepared_stash
    runs_stash
  obtain ⟨-, -, hfailed⟩ := hend stashLeft path_stash
  exact ⟨halways stashRun stashLeft List.prefix_rfl path_stash,
    (hfailed olderKext (stashSettings.runBackup ++ olderKext) (List.mem_of_getLast? rfl)).2⟩

/-- When the copy of a candidate fails, a later candidate can be gone, with one before it. -/
theorem later_candidate_removed : Prepared stashSettings stashCandidates stashTree ∧
    Runs (cleanup stashSettings stashCandidates) stashRun stashReport ∧
    Effect.Path Executes stashTree stashRun stashLeft ∧
    ⟨.copyR olderKext (stashSettings.runBackup ++ olderKext), false⟩ ∈ stashRun ∧
    stashReport.safeRemove = [currentKext] ++ olderKext :: [kcgenPlist] ∧
    stashTree.node kcgenPlist = some (.file ()) ∧ stashLeft.node kcgenPlist = none :=
  ⟨prepared_stash, runs_stash, path_stash, List.mem_of_getLast? rfl, rfl, by decide, by decide⟩

end Scripts

end MarvellW8897
