import MarvellW8897.Spec.Ledger
import MarvellW8897.Spec.Window

/-!
# The BAR table: release, decoding and mapping

* `runs_release` — `release` unmaps and releases each held map once, and nothing else.
* `runs_decodeBar` — the three ways to decode one slot.
* `mapped_mapResources` — the resources hold exactly the maps that were obtained.
-/

namespace MarvellW8897

open Effect

namespace PciBars

/-! ## Updates of one slot or one resource -/

section Updates

variable (state : PciBarState) (bar : Fin kMaxBars) (info : BarInfo) (i : Fin kMaxResources)
  (resource : ResourceInfo)

@[simp] theorem setBar_resources : (setBar state bar info).resources = state.resources := rfl

@[simp] theorem setBar_resourceCount :
    (setBar state bar info).resourceCount = state.resourceCount := rfl

@[simp] theorem setBar_bars_self : (setBar state bar info).bars bar = info :=
  Function.update_self ..

theorem setBar_bars_of_ne {b : Fin kMaxBars} (h : b ≠ bar) :
    (setBar state bar info).bars b = state.bars b := Function.update_of_ne h ..

@[simp] theorem setResource_bars : (setResource state i resource).bars = state.bars := rfl

@[simp] theorem setResource_resourceCount :
    (setResource state i resource).resourceCount = state.resourceCount := rfl

@[simp] theorem setResource_resources_self :
    (setResource state i resource).resources i = resource :=
  Function.update_self ..

theorem setResource_resources_of_ne {j : Fin kMaxResources} (h : j ≠ i) :
    (setResource state i resource).resources j = state.resources j := Function.update_of_ne h ..

end Updates

/-- The loops come to the slots in order. -/
theorem lt_of_turn {n : Nat} {before after : List (Fin n)} {x y : Fin n}
    (h : List.finRange n = before ++ x :: after) (hy : y ∈ before) : y < x := by
  have hlt := List.pairwise_lt_finRange n
  rw [h, List.pairwise_append] at hlt
  exact hlt.2.2 y hy x (by simp)

/-! ## release -/

/-- What `release` does about resource `i`. -/
def releaseEvents (state : PciBarState) (i : Fin kMaxResources) : List DeviceEvent :=
  match (state.resources i).map with
  | none => []
  | some map => [⟨.unmap map.handle, ()⟩, ⟨.releaseMap map.handle, ()⟩]

/-- What `release` does. -/
def releaseTrace (state : PciBarState) : List DeviceEvent :=
  (List.finRange kMaxResources).flatMap (releaseEvents state)

theorem runs_release {state state' : PciBarState} {t : List DeviceEvent} :
    Runs (release state) t state' ↔ t = releaseTrace state ∧ state' = reset state := by
  have hbody : ∀ i u, Runs (releaseResource state i) u () ↔ u = releaseEvents state i := by
    intro i u
    unfold releaseResource releaseEvents
    cases (state.resources i).map with
    | none => simp [runs_pure]
    | some map =>
      rw [runs_ask_bind]
      constructor
      · rintro ⟨_, u', rfl, h⟩
        rw [runs_ask.mp h]
      · rintro rfl
        exact ⟨(), _, rfl, runs_ask.mpr rfl⟩
  unfold release
  rw [runs_bind]
  constructor
  · rintro ⟨t₁, _, t₂, rfl, h₁, h₂⟩
    obtain ⟨rfl, rfl⟩ := runs_pure.mp h₂
    rw [(runs_forM_eq hbody).mp h₁]
    exact ⟨by simp [releaseTrace], rfl⟩
  · rintro ⟨rfl, rfl⟩
    exact ⟨releaseTrace state, (), [], by simp, (runs_forM_eq hbody).mpr rfl,
      runs_pure.mpr ⟨rfl, rfl⟩⟩

theorem mem_releaseTrace {state : PciBarState} {e : DeviceEvent} (h : e ∈ releaseTrace state) :
    ∃ i map, (state.resources i).map = some map ∧
      (e = ⟨.unmap map.handle, ()⟩ ∨ e = ⟨.releaseMap map.handle, ()⟩) := by
  obtain ⟨i, -, hi⟩ := List.mem_flatMap.mp h
  unfold releaseEvents at hi
  cases hm : (state.resources i).map with
  | none => simp [hm] at hi
  | some map =>
    rw [hm] at hi
    exact ⟨i, map, hm, by simpa using hi⟩

theorem only_releaseTrace (state : PciBarState) : Only [.drop] (releaseTrace state) := by
  intro e he
  obtain ⟨i, map, -, rfl | rfl⟩ := mem_releaseTrace he <;> simp [DeviceOp.kind]

/-- `release` only looks at the maps. -/
theorem releaseTrace_congr {state state' : PciBarState}
    (h : ∀ i, (state'.resources i).map = (state.resources i).map) :
    releaseTrace state' = releaseTrace state := by
  unfold releaseTrace
  congr 1
  funext i
  unfold releaseEvents
  rw [h i]

/-- Without a map there is nothing to release. -/
theorem releaseTrace_eq_nil {state : PciBarState} (h : ∀ i, (state.resources i).map = none) :
    releaseTrace state = [] := by
  rw [releaseTrace, List.flatMap_eq_nil_iff]
  intro i _
  simp [releaseEvents, h i]

/-- How many resources hold a reference to `handle`. -/
def heldCount (state : PciBarState) (handle : Nat) : Nat :=
  (List.finRange kMaxResources).countP
    (fun i => (state.resources i).map.map IOMemoryMap.handle == some handle)

theorem heldCount_congr {state state' : PciBarState}
    (h : ∀ i, (state'.resources i).map = (state.resources i).map) (handle : Nat) :
    heldCount state' handle = heldCount state handle := by
  unfold heldCount
  simp only [h]

/-- An event that each held map causes once in `release` occurs as often as a map is held. -/
theorem countP_releaseTrace (state : PciBarState) (handle : Nat) {p : DeviceEvent → Bool}
    (hp : ∀ h : Nat, List.countP p [⟨.unmap h, ()⟩, ⟨.releaseMap h, ()⟩] =
      if h = handle then 1 else 0) :
    (releaseTrace state).countP p = heldCount state handle := by
  unfold releaseTrace heldCount
  induction List.finRange kMaxResources with
  | nil => rfl
  | cons i l ih =>
    rw [List.flatMap_cons, List.countP_append, List.countP_cons, ih, Nat.add_comm]
    congr 1
    unfold releaseEvents
    cases (state.resources i).map with
    | none => simp
    | some map => simp [hp]

theorem unmappedCount_releaseTrace (state : PciBarState) (handle : Nat) :
    unmappedCount (releaseTrace state) handle = heldCount state handle :=
  countP_releaseTrace state handle (fun h => by simp [unmapped, List.countP_cons])

theorem releasedCount_releaseTrace (state : PciBarState) (handle : Nat) :
    releasedCount (releaseTrace state) handle = heldCount state handle :=
  countP_releaseTrace state handle (fun h => by simp [releasedMap, List.countP_cons])

/-! ## Decoding -/

/-- The ways to decode one slot: as an upper half, as a 64-bit pair, or on its own. -/
theorem runs_decodeBar {state state' : PciBarState} {bar : Fin kMaxBars} {t : List DeviceEvent}
    (h : Runs (decodeBar state bar) t state') :
    ∃ lo : UInt32,
      ((state.bars bar).isContinuation = true ∧ t = [⟨.configRead32 (barRegOffset bar), lo⟩] ∧
        state' = setBar state bar (decodeContinuation (state.bars bar) lo)) ∨
      ((state.bars bar).isContinuation = false ∧
        ∃ (next : Fin kMaxBars) (hi : UInt32), next.val = bar.val + 1 ∧
          (decodeFlags (state.bars bar) lo).is64Bit = true ∧
          t = [⟨.configRead32 (barRegOffset bar), lo⟩, ⟨.configRead32 (barRegOffset bar + 4), hi⟩] ∧
          state' = setBar (setBar state next { state.bars next with isContinuation := true }) bar
            (withPresent { decodeFlags (state.bars bar) lo with
              rawHigh := hi
              configValue := (hi.toUInt64 <<< 32) ||| lo.toUInt64 })) ∨
      ((state.bars bar).isContinuation = false ∧
        ¬ ((decodeFlags (state.bars bar) lo).is64Bit = true ∧ bar.val + 1 < kMaxBars) ∧
        t = [⟨.configRead32 (barRegOffset bar), lo⟩] ∧
        state' = setBar state bar (withPresent { decodeFlags (state.bars bar) lo with
          rawHigh := 0
          configValue := lo.toUInt64 })) := by
  unfold decodeBar at h
  obtain ⟨lo, t', rfl, hk⟩ := runs_ask_bind.mp h
  refine ⟨lo, ?_⟩
  cases hc : (state.bars bar).isContinuation with
  | true =>
    rw [if_pos hc] at hk
    obtain ⟨rfl, rfl⟩ := runs_pure.mp hk
    exact Or.inl ⟨rfl, rfl, rfl⟩
  | false =>
    rw [if_neg (by simp [hc])] at hk
    dsimp only at hk
    split at hk
    · next hw =>
      obtain ⟨hi, rfl, rfl⟩ := runs_ask_map.mp hk
      exact Or.inr (Or.inl ⟨rfl, ⟨bar.val + 1, hw.2⟩, hi, rfl, hw.1, rfl, rfl⟩)
    · next hw =>
      obtain ⟨rfl, rfl⟩ := runs_pure.mp hk
      exact Or.inr (Or.inr ⟨rfl, hw, rfl, rfl⟩)

/-- `state'` differs from `state` in the decoded fields of its slots at most. -/
structure SameLinks (state state' : PciBarState) : Prop where
  resources : state'.resources = state.resources
  resourceCount : state'.resourceCount = state.resourceCount
  mappedResource : ∀ b, (state'.bars b).mappedResource = (state.bars b).mappedResource

theorem SameLinks.refl (state : PciBarState) : SameLinks state state := ⟨rfl, rfl, fun _ => rfl⟩

theorem SameLinks.trans {s₁ s₂ s₃ : PciBarState} (h : SameLinks s₁ s₂) (h' : SameLinks s₂ s₃) :
    SameLinks s₁ s₃ :=
  ⟨h'.resources.trans h.resources, h'.resourceCount.trans h.resourceCount,
    fun b => (h'.mappedResource b).trans (h.mappedResource b)⟩

theorem sameLinks_setBar {state : PciBarState} {bar : Fin kMaxBars} {info : BarInfo}
    (h : info.mappedResource = (state.bars bar).mappedResource) :
    SameLinks state (setBar state bar info) := by
  refine ⟨rfl, rfl, ?_⟩
  intro b
  by_cases hb : b = bar
  · rw [hb, setBar_bars_self]
    exact h
  · rw [setBar_bars_of_ne _ _ _ hb]

theorem withPresent_mappedResource (info : BarInfo) :
    (withPresent info).mappedResource = info.mappedResource := by
  unfold withPresent
  split <;> rfl

theorem sameLinks_decodeBar {state state' : PciBarState} {bar : Fin kMaxBars}
    {t : List DeviceEvent} (h : Runs (decodeBar state bar) t state') : SameLinks state state' := by
  obtain ⟨lo, ⟨-, -, rfl⟩ | ⟨-, next, hi, hnext, -, -, rfl⟩ | ⟨-, -, -, rfl⟩⟩ := runs_decodeBar h
  · exact sameLinks_setBar rfl
  · have hne : bar ≠ next := by
      intro he
      rw [he] at hnext
      omega
    have hmark : SameLinks state
        (setBar state next { state.bars next with isContinuation := true }) := sameLinks_setBar rfl
    refine hmark.trans (sameLinks_setBar ?_)
    rw [withPresent_mappedResource, setBar_bars_of_ne _ _ _ hne]
    rfl
  · exact sameLinks_setBar (by rw [withPresent_mappedResource]; rfl)

/-- Decoding leaves the resources and the association alone. -/
theorem sameLinks_decodeBars {state state' : PciBarState} {t : List DeviceEvent}
    (h : Runs (decodeBars state) t state') : SameLinks state state' := by
  refine Runs.foldlM (I := fun _ _ s => SameLinks state s) h (SameLinks.refl state) ?_
  intro _ bar _ _ v s₁ s₂ _ hs hbar
  exact hs.trans (sameLinks_decodeBar hbar)

/-- Decoding only reads configuration dwords. -/
theorem uses_decodeBars (state : PciBarState) :
    Uses (fun op => ∃ offset, op = .configRead32 offset) (decodeBars state) := by
  refine Uses.foldlM ?_
  intro s bar
  refine Uses.bind (uses_ask ⟨_, rfl⟩) ?_
  intro lo
  split
  · exact uses_pure _
  · dsimp only
    split
    · exact Uses.bind (uses_ask ⟨_, rfl⟩) (fun _ => uses_pure _)
    · exact uses_pure _

/-! ## Mapping -/

/-- The record of a resource that was mapped and not claimed. -/
def mappedInfo (map : IOMemoryMap) : ResourceInfo where
  map := some map
  mappedPtr := map.pointer
  length := map.length
  physicalAddress := map.physicalAddress

theorem mem_resourceIndices {state : PciBarState} {i : Fin kMaxResources} :
    i ∈ resourceIndices state ↔ i.val < state.resourceCount.toNat := by
  unfold resourceIndices
  rw [List.mem_take_iff_getElem]
  constructor
  · rintro ⟨k, hk, rfl⟩
    simp only [List.length_finRange, Nat.lt_min] at hk
    simpa using hk.1
  · intro h
    exact ⟨i.val, by simp [h], by simp⟩

theorem map_resourceIndices (state : PciBarState) :
    (resourceIndices state).map (fun i => UInt32.ofNat i.val) =
      (List.range (min state.resourceCount.toNat kMaxResources)).map UInt32.ofNat := by
  rw [← List.take_range, ← List.map_coe_finRange_eq_range, ← List.map_take, List.map_map]
  rfl

theorem nodup_resourceIndices (state : PciBarState) : (resourceIndices state).Nodup :=
  (List.nodup_finRange kMaxResources).sublist (List.take_sublist _ _)

/-- Handles are held only by the resources with an index in `l`. -/
theorem heldCount_eq_countP {state : PciBarState} (handle : Nat)
    (h : ∀ i, i ∉ resourceIndices state → (state.resources i).map = none) :
    heldCount state handle = (resourceIndices state).countP
      (fun i => (state.resources i).map.map IOMemoryMap.handle == some handle) := by
  have hsplit : List.finRange kMaxResources = resourceIndices state ++
      (List.finRange kMaxResources).drop state.resourceCount.toNat := by
    rw [resourceIndices, List.take_append_drop]
  have hdrop : ∀ i ∈ (List.finRange kMaxResources).drop state.resourceCount.toNat,
      i ∉ resourceIndices state := by
    have hnd := List.nodup_finRange kMaxResources
    rw [hsplit, List.nodup_append] at hnd
    exact fun i hi hm => hnd.2.2 i hm i hi rfl
  unfold heldCount
  rw [hsplit, List.countP_append]
  have hzero : List.countP
      (fun i => (state.resources i).map.map IOMemoryMap.handle == some handle)
      ((List.finRange kMaxResources).drop state.resourceCount.toNat) = 0 := by
    rw [List.countP_eq_zero]
    intro i hi
    simp [h i (hdrop i hi)]
  rw [hzero, Nat.add_zero]

/--
What the mapping loop has reached after `visited`, having seen the events `t`: the resources hold
exactly the maps obtained, and the flag says whether there is one.
-/
structure Mapped (start : PciBarState) (visited : List (Fin kMaxResources))
    (t : List DeviceEvent) (acc : PciBarState × Bool) : Prop where
  bars : acc.1.bars = start.bars
  resourceCount : acc.1.resourceCount = start.resourceCount
  unvisited : ∀ i, i ∉ visited → acc.1.resources i = {}
  resource : ∀ i, acc.1.resources i = {} ∨
    ∃ map, acc.1.resources i = mappedInfo map ∧ ∃ e ∈ t, obtained e = some map
  flag : acc.2 = true ↔ ∃ i, (acc.1.resources i).map.isSome = true
  obtainedCount : ∀ handle, obtainedCount t handle = visited.countP
    (fun i => (acc.1.resources i).map.map IOMemoryMap.handle == some handle)

theorem mapped_mapResource {start : PciBarState} {visited : List (Fin kMaxResources)}
    {t u : List DeviceEvent} {acc acc' : PciBarState × Bool} {i : Fin kMaxResources}
    (hi : i ∉ visited) (hI : Mapped start visited t acc)
    (h : Runs (mapResource acc i) u acc') : Mapped start (visited ++ [i]) (t ++ u) acc' := by
  unfold mapResource at h
  obtain ⟨answer, u', rfl, hk⟩ := runs_ask_bind.mp h
  cases answer with
  | none =>
    obtain ⟨rfl, rfl⟩ := runs_pure.mp hk
    refine ⟨hI.bars, hI.resourceCount, fun j hj => hI.unvisited j (by simp_all), ?_, hI.flag, ?_⟩
    · intro j
      rcases hI.resource j with hj | ⟨map, hj, e, he, ho⟩
      · exact Or.inl hj
      · exact Or.inr ⟨map, hj, e, by simp [he], ho⟩
    · intro handle
      have hc := hI.obtainedCount handle
      unfold MarvellW8897.obtainedCount at hc ⊢
      rw [List.countP_append, List.countP_append, hc, List.countP_singleton, List.countP_singleton]
      simp [obtained, hI.unvisited i hi]
  | some map =>
    obtain ⟨rfl, rfl⟩ := runs_pure.mp hk
    have hinfo : ({ acc.1.resources i with
        map := some map
        mappedPtr := map.pointer
        length := map.length
        physicalAddress := map.physicalAddress } : ResourceInfo) = mappedInfo map := by
      simp [hI.unvisited i hi, mappedInfo]
    rw [hinfo]
    refine ⟨hI.bars, hI.resourceCount, ?_, ?_, ?_, ?_⟩
    · intro j hj
      have hne : j ≠ i := by
        rintro rfl
        simp at hj
      rw [setResource_resources_of_ne _ _ _ hne]
      exact hI.unvisited j (fun hm => hj (by simp [hm]))
    · intro j
      by_cases hj : j = i
      · rw [hj, setResource_resources_self]
        exact Or.inr ⟨map, rfl, ⟨.mapDeviceMemoryWithIndex (UInt32.ofNat i.val), some map⟩,
          by simp, rfl⟩
      · rw [setResource_resources_of_ne _ _ _ hj]
        rcases hI.resource j with hr | ⟨m, hr, e, he, ho⟩
        · exact Or.inl hr
        · exact Or.inr ⟨m, hr, e, by simp [he], ho⟩
    · refine ⟨fun _ => ⟨i, ?_⟩, fun _ => rfl⟩
      rw [setResource_resources_self]
      rfl
    · intro handle
      have hc := hI.obtainedCount handle
      unfold MarvellW8897.obtainedCount at hc ⊢
      rw [List.countP_append, List.countP_append, hc, List.countP_singleton, List.countP_singleton,
        setResource_resources_self]
      congr 1
      refine List.countP_congr ?_
      intro j hj
      have hne : j ≠ i := by
        rintro rfl
        exact hi hj
      rw [setResource_resources_of_ne _ _ _ hne]

/-- The mapping loop, from a state whose resources are all empty. -/
theorem mapped_mapResources {start : PciBarState} {t : List DeviceEvent}
    {acc : PciBarState × Bool} (hfresh : ∀ i, start.resources i = {})
    (h : Runs (mapResources start) t acc) : Mapped start (resourceIndices start) t acc := by
  refine Runs.foldlM h ⟨rfl, rfl, fun i _ => hfresh i, fun i => Or.inl (hfresh i), ?_,
    by simp [obtainedCount]⟩ ?_
  · simp [hfresh]
  · intro visited i rest t u acc acc' hl hI hi
    exact mapped_mapResource (not_visited (nodup_resourceIndices start) hl) hI hi

/-- The mapping loop asks for maps alone. -/
theorem uses_mapResources (state : PciBarState) :
    Uses (fun op => ∃ index, op = .mapDeviceMemoryWithIndex index) (mapResources state) := by
  refine Uses.foldlM ?_
  intro acc i
  refine Uses.bind (uses_ask ⟨_, rfl⟩) ?_
  rintro (_ | map)
  · exact uses_pure _
  · exact uses_pure _

/-- The mapping loop asks for a map of each index below the count, in order and once each. -/
theorem asked_mapResources {start : PciBarState} {t : List DeviceEvent}
    {acc : PciBarState × Bool} (h : Runs (mapResources start) t acc) :
    t.filterMap askedIndex = (resourceIndices start).map fun i => UInt32.ofNat i.val := by
  refine Runs.foldlM (I := fun visited t _ =>
    t.filterMap askedIndex = visited.map fun i => UInt32.ofNat i.val) h rfl ?_
  intro visited i rest t u acc acc' _ ht hi
  unfold mapResource at hi
  obtain ⟨answer, u', rfl, hk⟩ := runs_ask_bind.mp hi
  have hu : u' = [] := by
    cases answer with
    | none => exact (runs_pure.mp hk).1
    | some map => exact (runs_pure.mp hk).1
  rw [hu, List.filterMap_append, ht, List.map_append]
  rfl

theorem Mapped.heldCount {start : PciBarState} {t : List DeviceEvent} {acc : PciBarState × Bool}
    (h : Mapped start (resourceIndices start) t acc) (handle : Nat) :
    heldCount acc.1 handle = MarvellW8897.obtainedCount t handle := by
  have hidx : resourceIndices acc.1 = resourceIndices start := by
    unfold resourceIndices
    rw [h.resourceCount]
  rw [h.obtainedCount, heldCount_eq_countP handle, hidx]
  intro i hi
  rw [hidx] at hi
  rw [h.unvisited i hi]

end PciBars

end MarvellW8897
