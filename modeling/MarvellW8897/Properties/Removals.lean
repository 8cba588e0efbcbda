import MarvellW8897.Effect.Ensures
import MarvellW8897.Scripts.Cleanup

/-!
# The loop that backs up and removes

* `BackedUp` — what has disappeared from a tree is in the backup.
* `Adds` — a command that only adds something, above or below one path.
* `LoopState` — what holds at the top of the loop.
* `applyRemovals_ensures` — what holds at every moment, and where a failed copy leaves the list.
-/

namespace MarvellW8897

namespace Scripts

open Effect Shell

variable {File : Type} {old now now' now'' : FileTree File} {r : Bool}
  {runBackup p q x path source target : Shell.Path} {done todo removable : List Shell.Path}

/-! ## Paths beside the backup -/

/-- A path that is neither above the backup nor in it. -/
structure Beside (runBackup p : Shell.Path) : Prop where
  above : ¬ p <+: runBackup
  inside : ¬ runBackup <+: p

theorem Beside.below (h : Beside runBackup p) (hq : p <+: q) : Beside runBackup q where
  above := fun hr => h.above (hq.trans hr)
  inside := fun hr => (List.prefix_or_prefix_of_prefix hq hr).elim h.above h.inside

/-- What is above or below a path in the backup is not beside the backup. -/
theorem Beside.not_comparable (h : Beside runBackup p) (hx : runBackup <+: x) :
    ¬ p <+: x ∧ ¬ x <+: p where
  left := fun hp => (List.prefix_or_prefix_of_prefix hp hx).elim h.above h.inside
  right := fun hp => h.inside (hx.trans hp)

/-! ## Commands that add -/

/-- What exists stays, and what is new is above or below `x`. -/
structure Adds (x : Shell.Path) (now now' : FileTree File) : Prop where
  kept : ∀ q, now.node q ≠ none → now'.node q = now.node q
  created : ∀ q, now.node q = none → now'.node q ≠ none → q <+: x ∨ x <+: q

theorem Adds.trans (h : Adds x now now') (h' : Adds x now' now'') : Adds x now now'' where
  kept := by
    intro q hq
    have hkept := h.kept q hq
    rw [h'.kept q (hkept ▸ hq), hkept]
  created := by
    intro q hnone hq
    by_cases hmid : now'.node q = none
    · exact h'.created q hmid hq
    · exact h.created q hnone hmid

/-- Beside the backup, nothing is added to it. -/
theorem Adds.same (h : Adds x now now') (hx : runBackup <+: x) (hp : Beside runBackup p) :
    now'.node p = now.node p := by
  by_cases hnone : now.node p = none
  · rw [hnone]
    by_contra hne
    have happart := hp.not_comparable hx
    exact (h.created p hnone hne).elim happart.1 happart.2
  · exact h.kept p hnone

theorem adds_mkdirP (h : Executes now ⟨.mkdirP path, r⟩ now') (hpath : path <+: x) :
    Adds x now now' := by
  have hadds : (∀ q, now.node q ≠ none → now'.node q = now.node q) →
      (∀ q, ¬ q <+: path → now'.node q = now.node q) → Adds x now now' := by
    intro hkept hnew
    refine ⟨hkept, fun q hnone hne => ?_⟩
    by_contra hq
    have hnot : ¬ q <+: path := fun h => hq (Or.inl (h.trans hpath))
    exact hne ((hnew q hnot).trans hnone)
  cases h with
  | made _ hkept hnew => exact hadds hkept hnew
  | madePart hkept hnew => exact hadds hkept hnew

/-- `mkdir -p` changes nothing but the path and what is above it. -/
theorem mkdirP_other (h : Executes now ⟨.mkdirP path, r⟩ now') (hq : ¬ q <+: path) :
    now'.node q = now.node q := by
  cases h with
  | made _ _ hnew => exact hnew q hq
  | madePart _ hnew => exact hnew q hq

theorem destination_of_free (h : now.node target = none) :
    destination now source target = target := by
  rw [destination, h]

/-- A copy to a place where there is nothing. -/
theorem adds_copyR (h : Executes now ⟨.copyR source target, r⟩ now')
    (hfree : now.node target = none) : Adds target now now' := by
  have hadds : (∀ q, ¬ target <+: q → now'.node q = now.node q) → Adds target now now' := by
    intro hother
    refine ⟨fun q hq => hother q fun hbelow => ?_, fun q hnone hne => ?_⟩
    · exact hq (FileTree.none_below hbelow hfree)
    · by_contra hq
      have hnot : ¬ target <+: q := fun h => hq (Or.inr h)
      exact hne ((hother q hnot).trans hnone)
  have hdest : destination now source target = target := destination_of_free hfree
  cases h with
  | copied _ _ hother => exact hadds (by rwa [hdest] at hother)
  | copiedPart hother => exact hadds (by rwa [hdest] at hother)

/-! ## What has disappeared -/

/-- From `old` to `now`, what has disappeared lay under `removable` and is in the backup. -/
structure BackedUp (runBackup : Shell.Path) (removable : List Shell.Path)
    (old now : FileTree File) : Prop where
  existing : ∀ q, old.node q ≠ none → now.node q = old.node q ∨
    now.node q = none ∧ (∃ p ∈ removable, p <+: q) ∧ now.node (runBackup ++ q) = old.node q
  created : ∀ q, old.node q = none → now.node q ≠ none → q <+: runBackup ∨ runBackup <+: q

theorem BackedUp.mono {removable' : List Shell.Path} (h : BackedUp runBackup removable old now)
    (hsub : removable ⊆ removable') : BackedUp runBackup removable' old now where
  existing := by
    intro q hq
    rcases h.existing q hq with hsame | ⟨hnone, ⟨p, hp, hpq⟩, hcopy⟩
    · exact Or.inl hsame
    · exact Or.inr ⟨hnone, ⟨p, hsub hp, hpq⟩, hcopy⟩
  created := h.created

theorem BackedUp.adds (h : BackedUp runBackup removable old now) (hadds : Adds x now now')
    (hx : runBackup <+: x) (hbeside : ∀ p ∈ removable, Beside runBackup p) :
    BackedUp runBackup removable old now' where
  existing := by
    intro q hq
    rcases h.existing q hq with hsame | ⟨hnone, ⟨p, hp, hpq⟩, hcopy⟩
    · exact Or.inl ((hadds.kept q (hsame ▸ hq)).trans hsame)
    · refine Or.inr ⟨?_, ⟨p, hp, hpq⟩, ?_⟩
      · rw [hadds.same hx ((hbeside p hp).below hpq), hnone]
      · rw [hadds.kept _ (hcopy ▸ hq), hcopy]
  created := by
    intro q hnone hne
    by_cases hnow : now.node q = none
    · rcases hadds.created q hnow hne with hq | hq
      · exact List.prefix_or_prefix_of_prefix hq hx
      · exact Or.inr (hx.trans hq)
    · exact h.created q hnone hnow

/-- A removal, whole or in part, of what has been copied. -/
theorem BackedUp.removes (h : BackedUp runBackup removable old now) (hp : p ∈ removable)
    (hbeside : Beside runBackup p)
    (hcopy : ∀ q, p <+: q → now.node q ≠ none → now.node (runBackup ++ q) = now.node q)
    (hpath : ∀ q, p <+: q → now'.node q = now.node q ∨ now'.node q = none)
    (hother : ∀ q, ¬ p <+: q → now'.node q = now.node q) :
    BackedUp runBackup removable old now' where
  existing := by
    intro q hq
    have hbackup : now'.node (runBackup ++ q) = now.node (runBackup ++ q) :=
      hother _ (hbeside.not_comparable (List.prefix_append runBackup q)).1
    rw [hbackup]
    by_cases hpq : p <+: q
    · rcases hpath q hpq with hsame | hgone
      · rw [hsame]
        exact h.existing q hq
      · refine Or.inr ⟨hgone, ⟨p, hp, hpq⟩, ?_⟩
        rcases h.existing q hq with hsame | ⟨-, -, hcopied⟩
        · rw [hcopy q hpq (hsame ▸ hq), hsame]
        · exact hcopied
    · rw [hother q hpq]
      exact h.existing q hq
  created := by
    intro q hnone hne
    refine h.created q hnone ?_
    by_cases hpq : p <+: q
    · rcases hpath q hpq with hsame | hgone
      · exact hsame ▸ hne
      · exact absurd hgone hne
    · exact hother q hpq ▸ hne

/-! ## The loop -/

/-- The list of the loop: ancestors first, all beside the backup and in the tree. -/
structure Removable (runBackup : Shell.Path) (old : FileTree File) (paths : List Shell.Path) :
    Prop where
  ancestorsFirst : paths.Pairwise fun p q => ¬ q <+: p
  beside : ∀ p ∈ paths, Beside runBackup p
  found : ∀ p ∈ paths, old.node p ≠ none

/-- What holds at the top of the loop, when the paths `done` have had their turn. -/
structure LoopState (runBackup : Shell.Path) (done : List Shell.Path) (old now : FileTree File) :
    Prop where
  backedUp : BackedUp runBackup done old now
  copies : ∀ q, now.node (runBackup ++ q) ≠ none → q = [] ∨ ∃ p ∈ done, p <+: q ∨ q <+: p
  gone : ∀ p ∈ done, now.node p = none ∨ ∃ target, now.node p = some (.link target)

theorem Removable.not_above (h : Removable runBackup old (done ++ p :: todo)) (hq : q ∈ done) :
    ¬ p <+: q :=
  (List.pairwise_append.mp h.ancestorsFirst).2.2 q hq p List.mem_cons_self

/-- What is in the tree does not lie under a path that had its turn. -/
theorem LoopState.not_under (h : LoopState runBackup done old now)
    (hlist : Removable runBackup old (done ++ p :: todo)) (hp : now.node p ≠ none) :
    ∀ q ∈ done, ¬ q <+: p := by
  intro q hq hqp
  have hne : q ≠ p := fun heq => hlist.not_above hq (heq ▸ List.prefix_rfl)
  have hdirectory := FileTree.directory_above hqp hne hp
  rcases h.gone q hq with hnone | ⟨target, hlink⟩
  · rw [hnone] at hdirectory
    cases hdirectory
  · rw [hlink] at hdirectory
    cases hdirectory

/-- There is no copy yet of a path that is in the tree. -/
theorem LoopState.free (h : LoopState runBackup done old now)
    (hlist : Removable runBackup old (done ++ p :: todo)) (hp : now.node p ≠ none) :
    now.node (runBackup ++ p) = none := by
  have hbeside := hlist.beside p (by simp)
  by_contra hne
  rcases h.copies p hne with rfl | ⟨q, hq, hqp | hpq⟩
  · exact hbeside.above List.nil_prefix
  · exact h.not_under hlist hp q hq hqp
  · exact hlist.not_above hq hpq

/-- The turn of a path that is not found. -/
theorem LoopState.missing (h : LoopState runBackup done old now)
    (hp : now.node p = none ∨ ∃ target, now.node p = some (.link target)) :
    LoopState runBackup (done ++ [p]) old now where
  backedUp := h.backedUp.mono (List.subset_append_left _ _)
  copies := by
    intro q hq
    rcases h.copies q hq with rfl | ⟨e, he, hcomparable⟩
    · exact Or.inl rfl
    · exact Or.inr ⟨e, List.mem_append_left _ he, hcomparable⟩
  gone := by
    intro e he
    rcases List.mem_append.mp he with he | he
    · exact h.gone e he
    · rw [List.mem_singleton.mp he]
      exact hp

/-- The turn of a path that is backed up and removed. -/
theorem LoopState.removed (h : LoopState runBackup done old now)
    (hlist : Removable runBackup old (done ++ p :: todo))
    (hadds : Adds (runBackup ++ p) now now')
    (hbackedUp : BackedUp runBackup (done ++ [p]) old now'')
    (hpath : ∀ q, p <+: q → now''.node q = none)
    (hother : ∀ q, ¬ p <+: q → now''.node q = now'.node q) :
    LoopState runBackup (done ++ [p]) old now'' where
  backedUp := hbackedUp
  copies := by
    intro q hq
    have hbeside := hlist.beside p (by simp)
    rw [hother _ (hbeside.not_comparable (List.prefix_append runBackup q)).1] at hq
    by_cases hnone : now.node (runBackup ++ q) = none
    · refine Or.inr ⟨p, by simp, ?_⟩
      rcases hadds.created _ hnone hq with hbelow | habove
      · exact Or.inr ((List.prefix_append_right_inj runBackup).mp hbelow)
      · exact Or.inl ((List.prefix_append_right_inj runBackup).mp habove)
    · rcases h.copies q hnone with rfl | ⟨e, he, hcomparable⟩
      · exact Or.inl rfl
      · exact Or.inr ⟨e, List.mem_append_left _ he, hcomparable⟩
  gone := by
    intro e he
    rcases List.mem_append.mp he with he | he
    · have hbeside := hlist.beside e (List.mem_append_left _ he)
      rw [hother e (hlist.not_above he),
        hadds.same (List.prefix_append runBackup p) hbeside]
      exact h.gone e he
    · rw [List.mem_singleton.mp he]
      exact Or.inl (hpath p List.prefix_rfl)

/-! ## Where a failed copy leaves the list -/

/-- The path and what is below it are as they were. -/
def InPlace (old now : FileTree File) (p : Shell.Path) : Prop :=
  ∀ q, p <+: q → now.node q = old.node q

/-- The copy of `p` failed: it is in place, and what follows it in the list is so too or was removed
with a path before it. -/
def CopyFailed (paths : List Shell.Path) (p : Shell.Path) (old now : FileTree File) : Prop :=
  ∃ done todo, paths = done ++ p :: todo ∧ InPlace old now p ∧
    ∀ q ∈ todo, (∃ e ∈ done, e <+: q ∧ now.node e = none) ∨ InPlace old now q

/-- Where a failing command for `p` leaves a path whose turn has not come. -/
theorem LoopState.inPlace (h : LoopState runBackup done old now)
    (hlist : Removable runBackup old (done ++ p :: todo)) (hadds : Adds (runBackup ++ p) now now')
    (hq : q ∈ p :: todo) (hnot : ∀ e ∈ done, ¬ e <+: q) : InPlace old now' q := by
  have hbeside := hlist.beside q (List.mem_append_right _ hq)
  intro x hx
  rw [hadds.same (List.prefix_append runBackup p) (hbeside.below hx)]
  by_cases hold : old.node x = none
  · rw [hold]
    by_contra hne
    exact (h.backedUp.created x hold hne).elim (hbeside.below hx).above
      (hbeside.below hx).inside
  · rcases h.backedUp.existing x hold with hsame | ⟨-, ⟨e, he, hex⟩, -⟩
    · exact hsame
    · have hafter := (List.pairwise_append.mp hlist.ancestorsFirst).2.2 e he q hq
      exact ((List.prefix_or_prefix_of_prefix hex hx).elim (hnot e he) hafter).elim

theorem LoopState.copyFailed (h : LoopState runBackup done old now)
    (hlist : Removable runBackup old (done ++ p :: todo)) (hp : now.node p ≠ none)
    (hadds : Adds (runBackup ++ p) now now') : CopyFailed (done ++ p :: todo) p old now' := by
  refine ⟨done, todo, rfl, h.inPlace hlist hadds List.mem_cons_self (h.not_under hlist hp), ?_⟩
  intro q hq
  by_cases hunder : ∃ e ∈ done, e <+: q
  · obtain ⟨e, he, heq⟩ := hunder
    have hmem : e ∈ done ++ p :: todo := List.mem_append_left _ he
    have hafter := (List.pairwise_append.mp hlist.ancestorsFirst).2.2 e he q
      (List.mem_cons_of_mem p hq)
    have hne : e ≠ q := fun heq => hafter (heq ▸ List.prefix_rfl)
    have hqold := hlist.found q (List.mem_append_right _ (List.mem_cons_of_mem p hq))
    have hdirectory := FileTree.directory_above heq hne hqold
    refine Or.inl ⟨e, he, heq, ?_⟩
    rw [hadds.same (List.prefix_append runBackup p) (hlist.beside e hmem)]
    rcases h.gone e he with hnone | ⟨target, hlink⟩
    · exact hnone
    · rcases h.backedUp.existing e (hlist.found e hmem) with hsame | ⟨hnone, -⟩
      · rw [hlink, hdirectory] at hsame
        cases hsame
      · exact hnone
  · refine Or.inr (h.inPlace hlist hadds (List.mem_cons_of_mem p hq) ?_)
    exact fun e he heq => hunder ⟨e, he, heq⟩

/-! ## A turn of the loop -/

/-- A copy that succeeds has everything below its source. -/
theorem node_copied (h : Executes now ⟨.copyR p (runBackup ++ p), true⟩ now')
    (hfree : now.node (runBackup ++ p) = none) (hbeside : Beside runBackup p) :
    ∀ q, p <+: q → now'.node q ≠ none → now'.node (runBackup ++ q) = now'.node q := by
  rintro _ ⟨rest, rfl⟩ hne
  have hkept : now'.node (p ++ rest) = now.node (p ++ rest) :=
    (adds_copyR h hfree).same (List.prefix_append runBackup p)
      (hbeside.below (List.prefix_append p rest))
  rw [hkept] at hne
  cases h with
  | copied hcopy _ _ =>
    have hnode := hcopy rest hne
    rw [destination_of_free hfree, List.append_assoc] at hnode
    rw [hnode, hkept]

/-- The directory of the copy is made above the copy. -/
theorem not_prefix_dropLast (hpath : path ≠ []) : ¬ path <+: path.dropLast := by
  intro hprefix
  have hlength := hprefix.length_le
  have hpos := List.length_pos_iff.mpr hpath
  rw [List.length_dropLast] at hlength
  omega

/-- What the loop keeps at every moment, and where it stops if a copy fails. -/
theorem applyRemovals_ensures (done todo : List Shell.Path)
    (hlist : Removable runBackup old (done ++ todo))
    (h : LoopState runBackup done old now) :
    Ensures Executes (BackedUp runBackup (done ++ todo) old) (applyRemovals runBackup todo)
      (fun outcome now' => ∀ p target, outcome = .stopped (.copyR p target) →
        CopyFailed (done ++ todo) p old now') now := by
  induction todo generalizing done now with
  | nil =>
    refine ensures_pure (h.backedUp.mono (List.subset_append_left _ _)) ?_
    intro p target heq
    cases heq
  | cons p todo ih =>
    have hnext : done ++ [p] ++ todo = done ++ p :: todo := by simp
    have hsub : done ++ [p] ⊆ done ++ p :: todo := hnext ▸ List.subset_append_left _ todo
    have hbeside : ∀ q ∈ done ++ [p], Beside runBackup q := fun q hq => hlist.beside q (hsub hq)
    have hbackup := List.prefix_append runBackup p
    have hp : p ∈ done ++ [p] := by simp
    have hstart : BackedUp runBackup (done ++ [p]) old now :=
      h.backedUp.mono (List.subset_append_left _ _)
    refine ensures_ask_bind (hstart.mono hsub) ?_
    intro found now₁ hfound
    cases hfound with
    | missing hmissing =>
      -- `continue`
      have hturn := ih (done ++ [p]) (hnext ▸ hlist) (h.missing hmissing)
      rw [hnext] at hturn
      exact hturn
    | found hfound =>
      have hfree := h.free hlist hfound
      have hne : runBackup ++ p ≠ [] := by
        intro hnil
        have habove := (hbeside p hp).above
        rw [(List.append_eq_nil_iff.mp hnil).2] at habove
        exact habove List.nil_prefix
      refine ensures_ask_bind (hstart.mono hsub) ?_
      intro made now₂ hmade
      have hdirs : Adds (runBackup ++ p) now now₂ := adds_mkdirP hmade (List.dropLast_prefix _)
      have hmade₂ := hstart.adds hdirs hbackup hbeside
      rw [← mkdirP_other hmade (not_prefix_dropLast hne)] at hfree
      cases made with
      | false => exact ensures_pure (hmade₂.mono hsub) (by rintro _ _ ⟨⟩)
      | true =>
        refine ensures_ask_bind (hmade₂.mono hsub) ?_
        intro copied now₃ hcopied
        have hadds := hdirs.trans (adds_copyR hcopied hfree)
        have hcopied₃ := hstart.adds hadds hbackup hbeside
        cases copied with
        | false =>
          refine ensures_pure (hcopied₃.mono hsub) ?_
          rintro _ _ ⟨⟩
          exact h.copyFailed hlist hfound hadds
        | true =>
          have hcopies := node_copied hcopied hfree (hbeside p hp)
          refine ensures_ask_bind (hcopied₃.mono hsub) ?_
          intro removed now₄ hremoved
          cases hremoved with
          | removedPart hpath hother =>
            have hremoved₄ := hcopied₃.removes hp (hbeside p hp) hcopies hpath hother
            exact ensures_pure (hremoved₄.mono hsub) (by rintro _ _ ⟨⟩)
          | removed hpath hother =>
            have hremoved₄ := hcopied₃.removes hp (hbeside p hp) hcopies
              (fun q hq => Or.inr (hpath q hq)) hother
            have hstate := h.removed hlist hadds hremoved₄ hpath hother
            have hturn := ih (done ++ [p]) (hnext ▸ hlist) hstate
            rw [hnext] at hturn
            exact hturn

end Scripts

end MarvellW8897
