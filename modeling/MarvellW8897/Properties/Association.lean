import MarvellW8897.Properties.PciBars

/-!
# The BAR table: association

Which slot gets which resource, and the invariant that ties the two arrays together.

* `Consistent` — the representation invariant; `consistent_associate` is its only step.
* `consistent_association` — both passes keep it.
* `mapDeviceBars_cases` — the exits of `mapDeviceBars`; `mapDeviceBars_spec` sums them up.
-/

namespace MarvellW8897

open Effect

namespace PciBars

/-! ## Association -/

/-- Slot `b` names resource `i`. -/
def Names (state : PciBarState) (b : Fin kMaxBars) (i : Fin kMaxResources) : Prop :=
  (state.bars b).mappedResource = UInt32.ofNat i.val

theorem resourceIndex_ne_invalid (i : Fin kMaxResources) :
    UInt32.ofNat i.val ≠ kInvalidResourceIndex := by
  revert i
  decide

theorem resourceIndex_inj {i j : Fin kMaxResources} (h : UInt32.ofNat i.val = UInt32.ofNat j.val) :
    i = j := by
  revert i j
  decide

theorem Names.unique {state : PciBarState} {b : Fin kMaxBars} {i j : Fin kMaxResources}
    (h : Names state b i) (h' : Names state b j) : i = j :=
  resourceIndex_inj (h.symm.trans h')

/-- A BAR record without its borrowed mapping: what decoding alone determines. -/
def decodedPart (info : BarInfo) : BarInfo :=
  { info with mappedPtr := {}, length := 0, mappedResource := kInvalidResourceIndex }

/-- A resource record without its claim: what mapping alone determines. -/
def mappedPart (resource : ResourceInfo) : ResourceInfo := { resource with claimed := false }

/-- `state'` differs from `state` in the association at most. -/
structure SameDevice (state state' : PciBarState) : Prop where
  bars : ∀ b, decodedPart (state'.bars b) = decodedPart (state.bars b)
  resources : ∀ i, mappedPart (state'.resources i) = mappedPart (state.resources i)
  resourceCount : state'.resourceCount = state.resourceCount

theorem SameDevice.refl (state : PciBarState) : SameDevice state state :=
  ⟨fun _ => rfl, fun _ => rfl, rfl⟩

theorem SameDevice.trans {s₁ s₂ s₃ : PciBarState} (h : SameDevice s₁ s₂) (h' : SameDevice s₂ s₃) :
    SameDevice s₁ s₃ :=
  ⟨fun b => (h'.bars b).trans (h.bars b), fun i => (h'.resources i).trans (h.resources i),
    h'.resourceCount.trans h.resourceCount⟩

theorem SameDevice.eligible {state state' : PciBarState} (h : SameDevice state state')
    (b : Fin kMaxBars) : (state'.bars b).eligible = (state.bars b).eligible := by
  have hb := congrArg BarInfo.eligible (h.bars b)
  exact hb

theorem SameDevice.map {state state' : PciBarState} (h : SameDevice state state')
    (i : Fin kMaxResources) : (state'.resources i).map = (state.resources i).map := by
  have hi := congrArg ResourceInfo.map (h.resources i)
  exact hi

section Associate

variable (state : PciBarState) (bar : Fin kMaxBars) (i : Fin kMaxResources)

theorem associate_bars_self : (associate state bar i).bars bar = { state.bars bar with
    mappedResource := UInt32.ofNat i.val
    mappedPtr := (state.resources i).mappedPtr
    length := (state.resources i).length } := by
  simp [associate]

theorem associate_bars_of_ne {b : Fin kMaxBars} (h : b ≠ bar) :
    (associate state bar i).bars b = state.bars b := by
  simp [associate, setBar_bars_of_ne _ _ _ h]

theorem associate_resources_self :
    (associate state bar i).resources i = { state.resources i with claimed := true } := by
  simp [associate]

theorem associate_resources_of_ne {j : Fin kMaxResources} (h : j ≠ i) :
    (associate state bar i).resources j = state.resources j := by
  simp [associate, setResource_resources_of_ne _ _ _ h]

theorem sameDevice_associate : SameDevice state (associate state bar i) := by
  refine ⟨?_, ?_, rfl⟩
  · intro b
    by_cases hb : b = bar
    · rw [hb, associate_bars_self]
      rfl
    · rw [associate_bars_of_ne _ _ _ hb]
  · intro j
    by_cases hj : j = i
    · rw [hj, associate_resources_self]
      rfl
    · rw [associate_resources_of_ne _ _ _ hj]

theorem names_associate_self : Names (associate state bar i) bar i := by
  rw [Names, associate_bars_self]

theorem names_associate_of_ne {b : Fin kMaxBars} (h : b ≠ bar) {j : Fin kMaxResources} :
    Names (associate state bar i) b j ↔ Names state b j := by
  rw [Names, associate_bars_of_ne _ _ _ h, Names]

end Associate

section AssociateFirst

variable {wants : BarInfo → Bool} {fits : BarInfo → ResourceInfo → Bool} {state : PciBarState}
  {bar : Fin kMaxBars}

/-- One step of an association loop: nothing, or one free resource for a slot that wants one. -/
theorem associateFirst_cases (wants : BarInfo → Bool) (fits : BarInfo → ResourceInfo → Bool)
    (state : PciBarState) (bar : Fin kMaxBars) :
    associateFirst wants fits state bar = state ∨
      ∃ i, wants (state.bars bar) = true ∧ i ∈ resourceIndices state ∧
        (state.resources i).free = true ∧ fits (state.bars bar) (state.resources i) = true ∧
        associateFirst wants fits state bar = associate state bar i := by
  unfold associateFirst
  dsimp only
  split
  · next hw =>
    split
    · next i hf =>
      have hp := List.find?_some hf
      rw [Bool.and_eq_true] at hp
      exact Or.inr ⟨i, hw, List.mem_of_find?_eq_some hf, hp.1, hp.2, rfl⟩
    · exact Or.inl rfl
  · exact Or.inl rfl

theorem sameDevice_associateFirst :
    SameDevice state (associateFirst wants fits state bar) := by
  rcases associateFirst_cases wants fits state bar with he | ⟨i, -, -, -, -, he⟩
  · rw [he]
    exact SameDevice.refl state
  · rw [he]
    exact sameDevice_associate state bar i

/-- A pass over all slots leaves the decoded and mapped parts alone. -/
theorem sameDevice_pass (l : List (Fin kMaxBars)) :
    SameDevice state (l.foldl (associateFirst wants fits) state) :=
  foldl_invariant (I := fun _ s => SameDevice state s) (SameDevice.refl state)
    (fun _ _ _ _ _ hs => hs.trans sameDevice_associateFirst)

end AssociateFirst

theorem sameDevice_association (state : PciBarState) :
    SameDevice state (associateFallback (associateExact state)) :=
  (sameDevice_pass (List.finRange kMaxBars)).trans (sameDevice_pass (List.finRange kMaxBars))

/--
The representation invariant. Each resource that holds a map carries that map's data; a slot names
no resource, or one that holds a map and whose pointer and length it repeats; no two slots name the
same resource; a resource is claimed exactly if it is named; and only eligible slots name one.
-/
structure Consistent (state : PciBarState) : Prop where
  resourceCount_le : state.resourceCount.toNat ≤ kMaxResources
  resource : ∀ i map, (state.resources i).map = some map →
    i.val < state.resourceCount.toNat ∧ (state.resources i).mappedPtr = map.pointer ∧
      (state.resources i).length = map.length ∧
      (state.resources i).physicalAddress = map.physicalAddress
  slot : ∀ b, (state.bars b).mappedResource = kInvalidResourceIndex ∨
    ∃ i map, Names state b i ∧ (state.resources i).map = some map ∧
      (state.bars b).mappedPtr = map.pointer ∧ (state.bars b).length = map.length ∧
      (state.bars b).eligible = true
  injective : ∀ b b' i, Names state b i → Names state b' i → b = b'
  claimed_iff : ∀ i, (state.resources i).claimed = true ↔ ∃ b, Names state b i

theorem not_names_of_invalid {state : PciBarState} {b : Fin kMaxBars}
    (h : (state.bars b).mappedResource = kInvalidResourceIndex) (i : Fin kMaxResources) :
    ¬ Names state b i := by
  intro hn
  exact resourceIndex_ne_invalid i (hn.symm.trans h)

/-- A table without any association is consistent once its resources are. -/
theorem consistent_of_unassociated {state : PciBarState}
    (hcount : state.resourceCount.toNat ≤ kMaxResources)
    (hres : ∀ i, state.resources i = {} ∨
      (i.val < state.resourceCount.toNat ∧ ∃ map, state.resources i = mappedInfo map))
    (hbars : ∀ b, (state.bars b).mappedResource = kInvalidResourceIndex) : Consistent state where
  resourceCount_le := hcount
  resource := by
    intro i map hm
    rcases hres i with he | ⟨hlt, m, he⟩
    · rw [he] at hm
      simp at hm
    · rw [he] at hm ⊢
      simp only [mappedInfo, Option.some.injEq] at hm ⊢
      subst hm
      exact ⟨hlt, rfl, rfl, rfl⟩
  slot := fun b => Or.inl (hbars b)
  injective := fun b _ i hb _ => absurd hb (not_names_of_invalid (hbars b) i)
  claimed_iff := by
    intro i
    constructor
    · intro hc
      rcases hres i with he | ⟨-, m, he⟩ <;> simp [he, mappedInfo] at hc
    · rintro ⟨b, hb⟩
      exact absurd hb (not_names_of_invalid (hbars b) i)

theorem consistent_reset (state : PciBarState) : Consistent (reset state) :=
  consistent_of_unassociated (by simp [reset]) (fun _ => Or.inl rfl) (fun _ => rfl)

/-- Giving a free resource to an eligible slot that has none keeps the invariant. -/
theorem consistent_associate {state : PciBarState} {bar : Fin kMaxBars} {i : Fin kMaxResources}
    (h : Consistent state) (hel : (state.bars bar).eligible = true)
    (hbar : (state.bars bar).mappedResource = kInvalidResourceIndex)
    (hfree : (state.resources i).free = true) : Consistent (associate state bar i) := by
  have hsame := sameDevice_associate state bar i
  rw [ResourceInfo.free, Bool.and_eq_true, Bool.not_eq_true'] at hfree
  obtain ⟨map, hmap⟩ := Option.isSome_iff_exists.mp hfree.1
  -- nobody names the resource, since it is not claimed
  have hunnamed : ∀ b, ¬ Names state b i := by
    intro b hb
    have hc := (h.claimed_iff i).mpr ⟨b, hb⟩
    rw [hfree.2] at hc
    simp at hc
  refine ⟨?_, ?_, ?_, ?_, ?_⟩
  · rw [hsame.resourceCount]
    exact h.resourceCount_le
  · intro j m hm
    rw [hsame.map j] at hm
    rw [hsame.resourceCount]
    have hj := hsame.resources j
    obtain ⟨h₁, h₂, h₃, h₄⟩ := h.resource j m hm
    refine ⟨h₁, ?_, ?_, ?_⟩
    · exact (congrArg ResourceInfo.mappedPtr hj).trans h₂
    · exact (congrArg ResourceInfo.length hj).trans h₃
    · exact (congrArg ResourceInfo.physicalAddress hj).trans h₄
  · intro b
    rw [hsame.eligible b]
    by_cases hb : b = bar
    · obtain ⟨-, hptr, hlen, -⟩ := h.resource i map hmap
      rw [hb]
      refine Or.inr ⟨i, map, names_associate_self state bar i, by rw [hsame.map, hmap], ?_, ?_, hel⟩
      · rw [associate_bars_self]
        exact hptr
      · rw [associate_bars_self]
        exact hlen
    · rw [associate_bars_of_ne _ _ _ hb]
      rcases h.slot b with hn | ⟨j, m, hj, hm, hrest⟩
      · exact Or.inl hn
      · exact Or.inr ⟨j, m, (names_associate_of_ne _ _ _ hb).mpr hj, by rw [hsame.map, hm], hrest⟩
  · intro b b' j hb hb'
    -- a slot other than `bar` cannot name `i`, which only `bar` was given
    by_cases h₁ : b = bar <;> by_cases h₂ : b' = bar
    · rw [h₁, h₂]
    · rw [names_associate_of_ne _ _ _ h₂] at hb'
      rw [h₁] at hb
      rw [hb.unique (names_associate_self state bar i)] at hb'
      exact absurd hb' (hunnamed b')
    · rw [names_associate_of_ne _ _ _ h₁] at hb
      rw [h₂] at hb'
      rw [hb'.unique (names_associate_self state bar i)] at hb
      exact absurd hb (hunnamed b)
    · exact h.injective b b' j ((names_associate_of_ne _ _ _ h₁).mp hb)
        ((names_associate_of_ne _ _ _ h₂).mp hb')
  · intro j
    by_cases hj : j = i
    · rw [hj, associate_resources_self]
      exact ⟨fun _ => ⟨bar, names_associate_self state bar i⟩, fun _ => rfl⟩
    · rw [associate_resources_of_ne _ _ _ hj, h.claimed_iff j]
      constructor
      · rintro ⟨b, hb⟩
        have hne : b ≠ bar := by
          rintro rfl
          exact not_names_of_invalid hbar j hb
        exact ⟨b, (names_associate_of_ne _ _ _ hne).mpr hb⟩
      · rintro ⟨b, hb⟩
        by_cases hne : b = bar
        · rw [hne] at hb
          exact absurd (hb.unique (names_associate_self state bar i)) hj
        · exact ⟨b, (names_associate_of_ne _ _ _ hne).mp hb⟩

/-- The first pass keeps the invariant, when no slot has a resource yet. -/
theorem consistent_associateExact {state : PciBarState} (h : Consistent state)
    (hbars : ∀ b, (state.bars b).mappedResource = kInvalidResourceIndex) :
    Consistent (associateExact state) := by
  -- a slot gets a resource only at its own turn
  have hexact : Consistent (associateExact state) ∧ ∀ b, b ∉ List.finRange kMaxBars →
      ((associateExact state).bars b).mappedResource = kInvalidResourceIndex := by
    refine foldl_invariant (I := fun visited s => Consistent s ∧ ∀ b, b ∉ visited →
      (s.bars b).mappedResource = kInvalidResourceIndex) ⟨h, fun b _ => hbars b⟩ ?_
    rintro visited bar rest s hl ⟨hs, hrest⟩
    -- no slot comes up twice, so `bar` has not been visited
    have hbar := hrest bar (not_visited (List.nodup_finRange kMaxBars) hl)
    rcases associateFirst_cases BarInfo.eligible sameBase s bar with he | ⟨i, hw, -, hf, -, he⟩
    · rw [he]
      exact ⟨hs, fun b hb => hrest b (by simp_all)⟩
    · rw [he]
      refine ⟨consistent_associate hs hw hbar hf, ?_⟩
      intro b hb
      have hne : b ≠ bar := by
        rintro rfl
        simp at hb
      rw [associate_bars_of_ne _ _ _ hne]
      exact hrest b (by simp_all)
  exact hexact.1

/-- The slots that the second pass does not skip. -/
abbrev unserved (info : BarInfo) : Bool :=
  info.eligible && info.mappedResource == kInvalidResourceIndex

theorem consistent_fallback_step {state : PciBarState} (h : Consistent state)
    (bar : Fin kMaxBars) :
    Consistent (associateFirst unserved (fun _ _ => true) state bar) := by
  rcases associateFirst_cases unserved (fun _ _ => true) state bar with he | ⟨i, hw, -, hf, -, he⟩
  · rw [he]
    exact h
  · rw [Bool.and_eq_true, beq_iff_eq] at hw
    rw [he]
    exact consistent_associate h hw.1 hw.2 hf

/-- Both passes keep the invariant, when no slot has a resource yet. -/
theorem consistent_association {state : PciBarState} (h : Consistent state)
    (hbars : ∀ b, (state.bars b).mappedResource = kInvalidResourceIndex) :
    Consistent (associateFallback (associateExact state)) :=
  foldl_invariant (I := fun _ s => Consistent s) (consistent_associateExact h hbars)
    (fun _ bar _ _ _ hs => consistent_fallback_step hs bar)

/-! ## Whether any slot gets a resource -/

/-- Some slot has a resource. -/
def Serves (state : PciBarState) : Prop :=
  ∃ b, (state.bars b).mappedResource ≠ kInvalidResourceIndex

theorem mappedAnyBar_iff {state : PciBarState} : mappedAnyBar state = true ↔ Serves state := by
  simp [mappedAnyBar, Serves]

/-- An association loop never takes a resource away. -/
theorem Serves.associateFirst {state : PciBarState} (h : Serves state)
    (wants : BarInfo → Bool) (fits : BarInfo → ResourceInfo → Bool) (bar : Fin kMaxBars) :
    Serves (associateFirst wants fits state bar) := by
  obtain ⟨b, hb⟩ := h
  rcases associateFirst_cases wants fits state bar with he | ⟨i, -, -, -, -, he⟩
  · rw [he]
    exact ⟨b, hb⟩
  · rw [he]
    refine ⟨bar, ?_⟩
    rw [associate_bars_self]
    exact resourceIndex_ne_invalid i

/-- While no slot has a resource, the second pass gives one to the first eligible slot. -/
theorem serves_fallback_step {state : PciBarState} {bar : Fin kMaxBars} {i : Fin kMaxResources}
    (h : Consistent state) (hnone : ¬ Serves state)
    (heligible : (state.bars bar).eligible = true) (hmap : (state.resources i).map.isSome = true) :
    Serves (associateFirst unserved (fun _ _ => true) state bar) := by
  have hinvalid : ∀ b, (state.bars b).mappedResource = kInvalidResourceIndex := by
    intro b
    by_contra hb
    exact hnone ⟨b, hb⟩
  obtain ⟨map, hm⟩ := Option.isSome_iff_exists.mp hmap
  have hfree : (state.resources i).free = true := by
    have hclaimed : (state.resources i).claimed = false := by
      rw [Bool.eq_false_iff, Ne, h.claimed_iff]
      rintro ⟨b, hb⟩
      exact not_names_of_invalid (hinvalid b) i hb
    simp [ResourceInfo.free, hmap, hclaimed]
  have hmem : i ∈ resourceIndices state := mem_resourceIndices.mpr (h.resource i map hm).1
  unfold PciBars.associateFirst
  rw [if_pos (by simp [unserved, heligible, hinvalid])]
  -- `find?` meets resource `i` at the latest
  split
  · next j _ =>
    refine ⟨bar, ?_⟩
    rw [associate_bars_self]
    exact resourceIndex_ne_invalid j
  · next hf =>
    have hno := List.find?_eq_none.mp hf i hmem
    simp [hfree] at hno

/-- Some slot gets a resource exactly if some slot is eligible and some resource is mapped. -/
theorem serves_association_iff {state : PciBarState} (h : Consistent state)
    (hbars : ∀ b, (state.bars b).mappedResource = kInvalidResourceIndex) :
    Serves (associateFallback (associateExact state)) ↔
      (∃ b, (state.bars b).eligible = true) ∧ ∃ i, (state.resources i).map.isSome = true := by
  constructor
  · rintro ⟨b, hb⟩
    have hsame := sameDevice_association state
    rcases (consistent_association h hbars).slot b with hn | ⟨i, map, -, hm, -, -, hel⟩
    · exact absurd hn hb
    · rw [hsame.eligible] at hel
      rw [hsame.map] at hm
      exact ⟨⟨b, hel⟩, i, by rw [hm]; rfl⟩
  · rintro ⟨⟨b, hel⟩, i, hmap⟩
    -- either some slot was served, or every slot visited so far was skipped
    have hpass : Consistent (associateFallback (associateExact state)) ∧
        SameDevice state (associateFallback (associateExact state)) ∧
        (Serves (associateFallback (associateExact state)) ∨
          ∀ bar ∈ List.finRange kMaxBars, (state.bars bar).eligible = false) := by
      refine foldl_invariant (I := fun visited s => Consistent s ∧ SameDevice state s ∧
        (Serves s ∨ ∀ bar ∈ visited, (state.bars bar).eligible = false))
        ⟨consistent_associateExact h hbars, sameDevice_pass _, Or.inr (by simp)⟩ ?_
      rintro visited bar rest s - ⟨hs, hsame, hserved⟩
      refine ⟨consistent_fallback_step hs bar, hsame.trans sameDevice_associateFirst, ?_⟩
      rcases hserved with hserved | hskipped
      · exact Or.inl (hserved.associateFirst _ _ bar)
      · by_cases hnone : Serves s
        · exact Or.inl (hnone.associateFirst _ _ bar)
        cases hbar : (state.bars bar).eligible with
        | true =>
          exact Or.inl (serves_fallback_step hs hnone (by rw [hsame.eligible, hbar])
            (by rw [hsame.map, hmap]))
        | false =>
          right
          intro bar' hmem
          rcases List.mem_append.mp hmem with hmem | hmem
          · exact hskipped bar' hmem
          · rw [List.mem_singleton.mp hmem, hbar]
    rcases hpass.2.2 with hserved | hskipped
    · exact hserved
    · rw [hskipped b (List.mem_finRange b)] at hel
      simp at hel

/-! ## mapDeviceBars -/

theorem toNat_clampResourceCount (count : UInt32) :
    (clampResourceCount count).toNat = min count.toNat kMaxResources := by
  have hmax : (UInt32.ofNat kMaxResources).toNat = kMaxResources := rfl
  unfold clampResourceCount
  split
  · next h =>
    rw [gt_iff_lt, UInt32.lt_iff_toNat_lt, hmax] at h
    rw [hmax, Nat.min_eq_right h.le]
  · next h =>
    rw [gt_iff_lt, UInt32.lt_iff_toNat_lt, hmax] at h
    rw [Nat.min_eq_left (Nat.not_lt.mp h)]

theorem clampResourceCount_le (count : UInt32) :
    (clampResourceCount count).toNat ≤ kMaxResources := by
  rw [toNat_clampResourceCount]
  exact Nat.min_le_right count.toNat kMaxResources

/-- The exits of `mapDeviceBars` on an open provider. -/
theorem mapDeviceBars_cases {state state' : PciBarState} {ok : Bool} {t : List DeviceEvent}
    (h : Runs (mapDeviceBars true state) t (ok, state')) :
    ∃ (tc tm : List DeviceEvent) (count : UInt32) (decoded mapped : PciBarState) (any : Bool),
      Runs (decodeBars (reset state)) tc decoded ∧
      Runs (mapResources { decoded with resourceCount := clampResourceCount count }) tm
        (mapped, any) ∧
      ((ok = false ∧ state' = reset state ∧
          (any = false ∨ mappedAnyBar (associateFallback (associateExact mapped)) = false) ∧
          t = tc ++ ⟨.getDeviceMemoryCount, count⟩ :: (tm ++ releaseTrace mapped)) ∨
        (ok = true ∧ any = true ∧ state' = associateFallback (associateExact mapped) ∧
          mappedAnyBar state' = true ∧ t = tc ++ ⟨.getDeviceMemoryCount, count⟩ :: tm)) := by
  unfold mapDeviceBars at h
  rw [if_neg (by simp)] at h
  obtain ⟨tc, decoded, t₁, rfl, hdec, h₁⟩ := runs_bind.mp h
  obtain ⟨count, t₂, rfl, h₂⟩ := runs_ask_bind.mp h₁
  obtain ⟨tm, ⟨mapped, any⟩, t₃, rfl, hmap, h₃⟩ := runs_bind.mp h₂
  refine ⟨tc, tm, count, decoded, mapped, any, hdec, hmap, ?_⟩
  dsimp only at h₃
  cases any with
  | false =>
    obtain ⟨tr, released, t₄, rfl, hrel, h₄⟩ := runs_bind.mp h₃
    obtain ⟨rfl, hs⟩ := runs_pure.mp h₄
    obtain ⟨rfl, rfl⟩ := runs_release.mp hrel
    obtain ⟨rfl, rfl⟩ := Prod.mk.inj hs
    exact Or.inl ⟨rfl, rfl, Or.inl rfl, by simp⟩
  | true =>
    rw [if_neg (by simp)] at h₃
    -- the association asks nothing and keeps the maps, so both failing exits release the same
    cases hany : mappedAnyBar (associateFallback (associateExact mapped)) with
    | false =>
      rw [if_pos (by simp [hany])] at h₃
      obtain ⟨tr, released, t₄, rfl, hrel, h₄⟩ := runs_bind.mp h₃
      obtain ⟨rfl, hs⟩ := runs_pure.mp h₄
      obtain ⟨rfl, rfl⟩ := runs_release.mp hrel
      obtain ⟨rfl, rfl⟩ := Prod.mk.inj hs
      refine Or.inl ⟨rfl, rfl, Or.inr rfl, ?_⟩
      rw [releaseTrace_congr (sameDevice_association mapped).map]
      simp
    | true =>
      rw [if_neg (by simp [hany])] at h₃
      obtain ⟨rfl, hs⟩ := runs_pure.mp h₃
      obtain ⟨rfl, rfl⟩ := Prod.mk.inj hs
      exact Or.inr ⟨rfl, rfl, rfl, hany, by simp⟩

/-- What the decode loop and the mapping loop leave behind for the association. -/
theorem gathered {state decoded : PciBarState} {tc tm : List DeviceEvent} {count : UInt32}
    {mapped : PciBarState} {any : Bool} (hdec : Runs (decodeBars (reset state)) tc decoded)
    (hmap : Runs (mapResources { decoded with resourceCount := clampResourceCount count }) tm
      (mapped, any)) :
    Only [.config, .other, .map] (tc ++ ⟨.getDeviceMemoryCount, count⟩ :: tm) ∧
      Consistent mapped ∧ (∀ b, (mapped.bars b).mappedResource = kInvalidResourceIndex) ∧
      (any = true ↔ ∃ i, (mapped.resources i).map.isSome = true) ∧
      (∀ i map, (mapped.resources i).map = some map → ∃ e ∈ tm, obtained e = some map) ∧
      ∀ handle, heldCount mapped handle =
        obtainedCount (tc ++ ⟨.getDeviceMemoryCount, count⟩ :: tm) handle := by
  have hlinks := sameLinks_decodeBars hdec
  have htc := uses_decodeBars (reset state) tc decoded hdec
  have hfresh : ∀ i, ({ decoded with
      resourceCount := clampResourceCount count } : PciBarState).resources i = {} :=
    fun i => congrFun hlinks.resources i
  have hM := mapped_mapResources hfresh hmap
  have hbars : ∀ b, (mapped.bars b).mappedResource = kInvalidResourceIndex := by
    intro b
    rw [hM.bars]
    exact hlinks.mappedResource b
  have hcount : mapped.resourceCount = clampResourceCount count := hM.resourceCount
  refine ⟨?_, ?_, hbars, hM.flag, ?_, ?_⟩
  · intro e he
    rcases List.mem_append.mp he with he | he
    · obtain ⟨offset, ho⟩ := htc e he
      simp [ho, DeviceOp.kind]
    · rcases List.mem_cons.mp he with rfl | he
      · simp [DeviceOp.kind]
      · obtain ⟨index, ho⟩ := uses_mapResources _ tm (mapped, any) hmap e he
        simp [ho, DeviceOp.kind]
  · refine consistent_of_unassociated ?_ ?_ hbars
    · rw [hcount]
      exact clampResourceCount_le count
    · intro i
      by_cases hi : i ∈ resourceIndices { decoded with resourceCount := clampResourceCount count }
      · rcases hM.resource i with he | ⟨map, he, -⟩
        · exact Or.inl he
        · refine Or.inr ⟨?_, map, he⟩
          rw [hcount]
          exact mem_resourceIndices.mp hi
      · exact Or.inl (hM.unvisited i hi)
  · intro i map hm
    rcases hM.resource i with he | ⟨m, he, e, hmem, ho⟩
    · rw [he] at hm
      simp at hm
    · rw [he] at hm
      obtain rfl : m = map := by simpa [mappedInfo] using hm
      exact ⟨e, hmem, ho⟩
  · intro handle
    have honly : Only [.config] tc := by
      intro e he
      obtain ⟨offset, ho⟩ := htc e he
      simp [ho, DeviceOp.kind]
    have hzero : obtainedCount tc handle = 0 := honly.obtainedCount_eq_zero
    rw [hM.heldCount handle]
    unfold obtainedCount at hzero ⊢
    rw [List.countP_append, hzero, List.countP_cons]
    simp [obtained]

/--
A table that was built while asking `t`: consistent, and in possession of every map that was
obtained.
-/
structure Built (t : List DeviceEvent) (state : PciBarState) : Prop where
  ops : Only [.config, .enable, .other, .map] t
  consistent : Consistent state
  obtained : ∀ i map, (state.resources i).map = some map → ∃ e ∈ t, obtained e = some map
  heldCount : ∀ handle, heldCount state handle = obtainedCount t handle

/-- What giving up leaves behind: each map that was obtained was unmapped and released again. -/
structure Undone (t : List DeviceEvent) : Prop where
  ops : Only [.config, .enable, .other, .map, .drop] t
  unmapped : ∀ handle, unmappedCount t handle = obtainedCount t handle
  released : ∀ handle, releasedCount t handle = obtainedCount t handle

section Prepend

variable {t u : List DeviceEvent} {state : PciBarState}

theorem Built.prepend (h : Built t state) (hu : Only [.config, .enable] u) :
    Built (u ++ t) state where
  ops := hu.mono.append h.ops
  consistent := h.consistent
  obtained := by
    intro i map hm
    obtain ⟨e, he, ho⟩ := h.obtained i map hm
    exact ⟨e, List.mem_append_right u he, ho⟩
  heldCount := by
    intro handle
    rw [obtainedCount_append, hu.obtainedCount_eq_zero, h.heldCount, Nat.zero_add]

theorem Undone.prepend (h : Undone t) (hu : Only [.config, .enable] u) : Undone (u ++ t) where
  ops := hu.mono.append h.ops
  unmapped := by
    intro handle
    rw [unmappedCount_append, obtainedCount_append, hu.unmappedCount_eq_zero,
      hu.obtainedCount_eq_zero, h.unmapped]
  released := by
    intro handle
    rw [releasedCount_append, obtainedCount_append, hu.releasedCount_eq_zero,
      hu.obtainedCount_eq_zero, h.released]

end Prepend

theorem mapDeviceBars_spec {state state' : PciBarState} {ok : Bool} {t : List DeviceEvent}
    (h : Runs (mapDeviceBars true state) t (ok, state')) :
    (ok = true ∧ Built t state') ∨ (ok = false ∧ state' = reset state ∧ Undone t) := by
  obtain ⟨tc, tm, count, decoded, mapped, any, hdec, hmap, hexit⟩ := mapDeviceBars_cases h
  obtain ⟨hops, hcons, hbars, -, hobt, hheld⟩ := gathered hdec hmap
  rcases hexit with ⟨rfl, rfl, -, rfl⟩ | ⟨rfl, -, rfl, -, rfl⟩
  · rw [← List.cons_append, ← List.append_assoc]
    refine Or.inr ⟨rfl, rfl, hops.mono.append (only_releaseTrace mapped).mono, ?_, ?_⟩
    · intro handle
      rw [unmappedCount_append, obtainedCount_append, hops.unmappedCount_eq_zero,
        (only_releaseTrace mapped).obtainedCount_eq_zero, unmappedCount_releaseTrace,
        hheld, Nat.zero_add, Nat.add_zero]
    · intro handle
      rw [releasedCount_append, obtainedCount_append, hops.releasedCount_eq_zero,
        (only_releaseTrace mapped).obtainedCount_eq_zero, releasedCount_releaseTrace,
        hheld, Nat.zero_add, Nat.add_zero]
  · refine Or.inl ⟨rfl, hops.mono, consistent_association hcons hbars, ?_, ?_⟩
    · intro i map hm
      rw [(sameDevice_association mapped).map i] at hm
      obtain ⟨e, he, ho⟩ := hobt i map hm
      exact ⟨e, by simp [he], ho⟩
    · intro handle
      rw [← hheld handle]
      exact heldCount_congr (sameDevice_association mapped).map handle

/-! ## What the device offers -/

/-- The part of `mapDeviceBars` before the association: the slots decoded, the resources mapped. -/
def gather (state : PciBarState) : DeviceM PciBarState := do
  let state ← decodeBars (reset state)
  let count : UInt32 ← ask .getDeviceMemoryCount
  let (state, _) ← mapResources { state with resourceCount := clampResourceCount count }
  return state

/-- A run of `gather` decodes, asks for the count and maps. -/
theorem runs_gather {state table : PciBarState} {u : List DeviceEvent}
    (h : Runs (gather state) u table) :
    ∃ (tc tm : List DeviceEvent) (count : UInt32) (decoded : PciBarState) (any : Bool),
      u = tc ++ ⟨.getDeviceMemoryCount, count⟩ :: tm ∧
      Runs (decodeBars (reset state)) tc decoded ∧
      Runs (mapResources { decoded with resourceCount := clampResourceCount count }) tm
        (table, any) := by
  unfold gather at h
  obtain ⟨tc, decoded, t₁, rfl, hdec, h₁⟩ := runs_bind.mp h
  obtain ⟨count, t₂, rfl, h₂⟩ := runs_ask_bind.mp h₁
  obtain ⟨tm, ⟨mapped, any⟩, t₃, rfl, hmap, h₃⟩ := runs_bind.mp h₂
  obtain ⟨rfl, rfl⟩ := runs_pure.mp h₃
  exact ⟨tc, tm, count, decoded, any, by simp, hdec, hmap⟩

/--
`gather` asks once how many resources there are, and then for a map of each index below that number
and below the size of the array, in order and once each.
-/
theorem asked_gather {state table : PciBarState} {u : List DeviceEvent}
    (h : Runs (gather state) u table) :
    ∃ count, u.filterMap countGiven = [count] ∧ u.filterMap askedIndex =
      (List.range (min count.toNat kMaxResources)).map UInt32.ofNat := by
  obtain ⟨tc, tm, count, decoded, any, rfl, hdec, hmap⟩ := runs_gather h
  have htc : Only [.config] tc := by
    intro e he
    obtain ⟨offset, ho⟩ := uses_decodeBars (reset state) tc decoded hdec e he
    simp [ho, DeviceOp.kind]
  have htm : Only [.map] tm := by
    intro e he
    obtain ⟨index, ho⟩ := uses_mapResources _ tm (table, any) hmap e he
    simp [ho, DeviceOp.kind]
  refine ⟨count, ?_, ?_⟩
  · rw [List.filterMap_append, htc.countGiven_eq_nil]
    change count :: tm.filterMap countGiven = [count]
    rw [htm.countGiven_eq_nil]
  · rw [List.filterMap_append, htc.askedIndex_eq_nil]
    change tm.filterMap askedIndex = _
    rw [asked_mapResources hmap, map_resourceIndices, toNat_clampResourceCount, Nat.min_assoc,
      Nat.min_self]

/-- Some slot is a memory BAR, and some resource could be mapped. -/
def Mappable (table : PciBarState) : Prop :=
  (∃ b, (table.bars b).eligible = true) ∧ ∃ i, (table.resources i).map.isSome = true

/-- `mapDeviceBars` succeeds exactly if the device offers a memory BAR and a map. -/
theorem mapDeviceBars_gather {state state' : PciBarState} {ok : Bool} {t : List DeviceEvent}
    (h : Runs (mapDeviceBars true state) t (ok, state')) :
    ∃ u w table, t = u ++ w ∧ Only [.drop] w ∧ Runs (gather state) u table ∧
      (ok = true ↔ Mappable table) ∧
      (ok = true → state' = associateFallback (associateExact table)) := by
  obtain ⟨tc, tm, count, decoded, mapped, any, hdec, hmap, hexit⟩ := mapDeviceBars_cases h
  obtain ⟨-, hcons, hbars, hflag, -, -⟩ := gathered hdec hmap
  have hgather : Runs (gather state) (tc ++ ⟨.getDeviceMemoryCount, count⟩ :: tm) mapped := by
    refine hdec.bind (runs_ask_bind.mpr ⟨count, tm, rfl, ?_⟩)
    exact runs_bind.mpr ⟨tm, (mapped, any), [], (List.append_nil tm).symm, hmap,
      runs_pure.mpr ⟨rfl, rfl⟩⟩
  have hserves := serves_association_iff hcons hbars
  rcases hexit with ⟨rfl, -, hno, rfl⟩ | ⟨rfl, hany, rfl, hserved, rfl⟩
  · refine ⟨_, releaseTrace mapped, mapped, by simp, only_releaseTrace mapped, hgather,
      iff_of_false (by simp) ?_, by simp⟩
    intro hm
    rcases hno with hno | hno
    · rw [hflag.mpr hm.2] at hno
      simp at hno
    · rw [mappedAnyBar_iff.mpr (hserves.mpr hm)] at hno
      simp at hno
  · exact ⟨_, [], mapped, (List.append_nil _).symm, by simp [Only], hgather,
      iff_of_true rfl (hserves.mp (mappedAnyBar_iff.mp hserved)), fun _ => rfl⟩

end PciBars

end MarvellW8897
