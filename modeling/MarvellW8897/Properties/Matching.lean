import MarvellW8897.Greedy.Assignment
import MarvellW8897.Properties.Association
import MarvellW8897.Spec.Environment

/-!
# The association as two greedy passes

`associateExact` and `associateFallback` are greedy passes over the slots, with two relations of
what fits.

* `assigned_associateExact`, `assigned_associateFallback` — the two loops are `Greedy.pass`.
* `association_outcome` — when the association succeeds, how many slots it serves and with what.
-/

namespace MarvellW8897

open Effect

namespace PciBars

/-! ## The assignment in a table -/

/-- The resource that each slot names. -/
def assigned (state : PciBarState) (b : Fin kMaxBars) : Option (Fin kMaxResources) :=
  (List.finRange kMaxResources).find? fun i =>
    (state.bars b).mappedResource == UInt32.ofNat i.val

variable {table state : PciBarState} {b bar : Fin kMaxBars} {i : Fin kMaxResources}

theorem assigned_eq_some : assigned state b = some i ↔ Names state b i := by
  constructor
  · intro h
    simpa [Names] using List.find?_some h
  · intro h
    cases hf : assigned state b with
    | none =>
      have hno := List.find?_eq_none.mp hf i (List.mem_finRange i)
      rw [Names] at h
      simp [h] at hno
    | some j =>
      have hj : Names state b j := by simpa [Names] using List.find?_some hf
      rw [hj.unique h]

theorem Consistent.assigned_eq_none (h : Consistent state) :
    assigned state b = none ↔ (state.bars b).mappedResource = kInvalidResourceIndex := by
  constructor
  · intro hn
    rcases h.slot b with hb | ⟨i, _, hi, -⟩
    · exact hb
    · rw [assigned_eq_some.mpr hi] at hn
      simp at hn
  · intro hb
    cases ha : assigned state b with
    | none => rfl
    | some i => exact absurd (assigned_eq_some.mp ha) (not_names_of_invalid hb i)

theorem Consistent.taken_iff (h : Consistent state) :
    Greedy.Taken (assigned state) i ↔ (state.resources i).claimed = true := by
  rw [h.claimed_iff]
  exact exists_congr fun _ => assigned_eq_some

theorem Consistent.assigned_injective (h : Consistent state) : Greedy.Injective (assigned state) :=
  fun b b' i hb hb' => h.injective b b' i (assigned_eq_some.mp hb) (assigned_eq_some.mp hb')

theorem assigned_associate :
    assigned (associate state bar i) = Function.update (assigned state) bar (some i) := by
  funext b
  by_cases hb : b = bar
  · rw [hb, Function.update_self]
    exact assigned_eq_some.mpr (names_associate_self state bar i)
  · rw [Function.update_of_ne hb]
    unfold assigned
    rw [associate_bars_of_ne _ _ _ hb]

/-! ## The loops -/

/-- Slot `b` may be given resource `i`: it is eligible, the resource is mapped, and they match. -/
def Fits (fits : BarInfo → ResourceInfo → Bool) (table : PciBarState) (b : Fin kMaxBars)
    (i : Fin kMaxResources) : Prop :=
  (table.bars b).eligible = true ∧ (table.resources i).map.isSome = true ∧
    fits (table.bars b) (table.resources i) = true

/-- What the first pass assigns to each slot of `table`. -/
noncomputable def exactPass (table : PciBarState) : Fin kMaxBars → Option (Fin kMaxResources) :=
  Greedy.pass (Fits sameBase table) (resourceIndices table) (fun _ => none)
    (List.finRange kMaxBars)

/-- What both passes assign. -/
noncomputable def bothPasses (table : PciBarState) : Fin kMaxBars → Option (Fin kMaxResources) :=
  Greedy.pass (Fits (fun _ _ => true) table) (resourceIndices table) (exactPass table)
    (List.finRange kMaxBars)

theorem resourceIndices_congr (h : SameDevice table state) :
    resourceIndices state = resourceIndices table := by
  unfold resourceIndices
  rw [h.resourceCount]

open Classical in
/-- One turn of a slot. -/
theorem assigned_associateFirst {wants : BarInfo → Bool} {fits : BarInfo → ResourceInfo → Bool}
    (hc : Consistent state) (hsame : SameDevice table state)
    (hfits : ∀ i, fits (state.bars bar) (state.resources i) =
      fits (table.bars bar) (table.resources i))
    (hwants : wants (state.bars bar) = true ↔
      (state.bars bar).eligible = true ∧ (state.bars bar).mappedResource = kInvalidResourceIndex) :
    assigned (associateFirst wants fits state bar) =
      Greedy.step (Fits fits table) (resourceIndices table) (assigned state) bar := by
  unfold associateFirst Greedy.step
  dsimp only
  by_cases hbar : (state.bars bar).mappedResource = kInvalidResourceIndex
  · rw [if_pos (hc.assigned_eq_none.mpr hbar)]
    by_cases hel : (state.bars bar).eligible = true
    · rw [if_pos (hwants.mpr ⟨hel, hbar⟩)]
      -- both look for the first resource with the same property
      have hfind : (resourceIndices state).find? (fun i =>
          (state.resources i).free && fits (state.bars bar) (state.resources i)) =
          Greedy.firstFree (Fits fits table) (resourceIndices table) (assigned state) bar := by
        unfold Greedy.firstFree
        rw [resourceIndices_congr hsame]
        congr 1
        funext i
        rw [Bool.eq_iff_iff, decide_eq_true_iff, hc.taken_iff, Fits, ← hsame.eligible, ← hsame.map,
          ← hfits]
        simp only [ResourceInfo.free, Bool.and_eq_true, Bool.not_eq_true', Bool.not_eq_true, hel,
          true_and]
        exact and_right_comm
      rw [hfind]
      split
      · next i hi => rw [assigned_associate, hi]
      · next hn =>
        rw [hn]
        exact (Function.update_eq_self_iff.mpr (hc.assigned_eq_none.mpr hbar).symm).symm
    · rw [if_neg (fun hw => hel (hwants.mp hw).1)]
      have hnone : Greedy.firstFree (Fits fits table) (resourceIndices table) (assigned state) bar =
          none := by
        unfold Greedy.firstFree
        rw [List.find?_eq_none]
        intro i _
        simp [Fits, ← hsame.eligible, hel]
      rw [hnone]
      exact (Function.update_eq_self_iff.mpr (hc.assigned_eq_none.mpr hbar).symm).symm
  · rw [if_neg (fun hn => hbar (hc.assigned_eq_none.mp hn)),
      if_neg (fun hw => hbar (hwants.mp hw).2)]

theorem SameDevice.sameBase (h : SameDevice table state) :
    sameBase (state.bars b) (state.resources i) = sameBase (table.bars b) (table.resources i) := by
  have hb := congrArg BarInfo.configValue (h.bars b)
  have hi := congrArg ResourceInfo.physicalAddress (h.resources i)
  change (state.bars b).configValue = (table.bars b).configValue at hb
  change (state.resources i).physicalAddress = (table.resources i).physicalAddress at hi
  rw [PciBars.sameBase, PciBars.sameBase, hb, hi]

/-- The first pass, from a table in which no slot has a resource. -/
theorem assigned_associateExact (hc : Consistent table)
    (hbars : ∀ b, (table.bars b).mappedResource = kInvalidResourceIndex) :
    assigned (associateExact table) = exactPass table := by
  have hexact : Consistent (associateExact table) ∧ SameDevice table (associateExact table) ∧
      assigned (associateExact table) = exactPass table := by
    refine foldl_invariant (I := fun visited s => Consistent s ∧ SameDevice table s ∧
      assigned s = Greedy.pass (Fits sameBase table) (resourceIndices table) (fun _ => none)
        visited) ⟨hc, SameDevice.refl table, ?_⟩ ?_
    · funext b
      exact hc.assigned_eq_none.mpr (hbars b)
    rintro visited bar rest s hl ⟨hs, hsame, ha⟩
    -- a slot gets a resource only at its own turn
    have hbar : (s.bars bar).mappedResource = kInvalidResourceIndex := by
      rw [← hs.assigned_eq_none, ha]
      exact Greedy.pass_of_not_mem (not_visited (List.nodup_finRange kMaxBars) hl)
    refine ⟨?_, hsame.trans sameDevice_associateFirst, ?_⟩
    · rcases associateFirst_cases BarInfo.eligible sameBase s bar with he | ⟨i, hw, -, hf, -, he⟩
      · rw [he]
        exact hs
      · rw [he]
        exact consistent_associate hs hw hbar hf
    · rw [assigned_associateFirst hs hsame (fun _ => hsame.sameBase) (by simp [hbar]), ha,
        Greedy.pass_append]
      rfl
  exact hexact.2.2

/-- The second pass. -/
theorem assigned_associateFallback (hc : Consistent state) (hsame : SameDevice table state) :
    assigned (associateFallback state) = Greedy.pass (Fits (fun _ _ => true) table)
      (resourceIndices table) (assigned state) (List.finRange kMaxBars) := by
  have hfallback : Consistent (associateFallback state) ∧
      SameDevice table (associateFallback state) ∧
      assigned (associateFallback state) = Greedy.pass (Fits (fun _ _ => true) table)
        (resourceIndices table) (assigned state) (List.finRange kMaxBars) := by
    refine foldl_invariant (I := fun visited s => Consistent s ∧ SameDevice table s ∧
      assigned s = Greedy.pass (Fits (fun _ _ => true) table) (resourceIndices table)
        (assigned state) visited) ⟨hc, hsame, rfl⟩ ?_
    rintro visited bar rest s - ⟨hs, hsame, ha⟩
    refine ⟨consistent_fallback_step hs bar, hsame.trans sameDevice_associateFirst, ?_⟩
    change assigned (associateFirst unserved (fun _ _ => true) s bar) = _
    rw [assigned_associateFirst hs hsame (fun _ => rfl) (by simp [unserved]), ha,
      Greedy.pass_append]
    rfl
  exact hfallback.2.2

/-! ## Both passes -/

/-- The slots that may be associated. -/
def eligibleSlots (table : PciBarState) : Finset (Fin kMaxBars) :=
  Finset.univ.filter fun b => (table.bars b).eligible = true

/-- The resources that are mapped. -/
def mappedIndices (table : PciBarState) : Finset (Fin kMaxResources) :=
  Finset.univ.filter fun i => (table.resources i).map.isSome = true

/-- The slots that are associated with a resource. -/
def servedSlots (state : PciBarState) : Finset (Fin kMaxBars) :=
  Finset.univ.filter fun b => (state.bars b).mappedResource ≠ kInvalidResourceIndex

/-- The base address of a slot. -/
abbrev barBase (table : PciBarState) (b : Fin kMaxBars) : UInt64 :=
  baseOf (table.bars b).configValue

/-- The base address of a resource. -/
abbrev resourceBase (table : PciBarState) (i : Fin kMaxResources) : UInt64 :=
  baseOf (table.resources i).physicalAddress

/--
`state` is `table` with its slots associated: as many as possible, with a resource of the slot's
base unless lower slots with that base have them all, and in order where the second pass does it.
-/
structure Associated (table state : PciBarState) : Prop where
  device : SameDevice table state
  consistent : Consistent state
  card : (servedSlots state).card = min (eligibleSlots table).card (mappedIndices table).card
  maximal : ∀ b ∈ eligibleSlots table, b ∉ servedSlots state → ∀ i ∈ mappedIndices table,
    (state.resources i).claimed = true
  priority : ∀ b ∈ eligibleSlots table,
    (∀ i, Names state b i → resourceBase table i ≠ barBase table b) →
    ∀ i ∈ mappedIndices table, resourceBase table i = barBase table b →
      ∃ b', b' < b ∧ barBase table b' = barBase table b ∧ Names state b' i
  fallback : ∀ b i, Names state b i →
    (((associateExact table).bars b).mappedResource = kInvalidResourceIndex ↔
      resourceBase table i ≠ barBase table b)
  order : ∀ b b' i i', b < b' → Names state b i → Names state b' i' →
    resourceBase table i ≠ barBase table b → resourceBase table i' ≠ barBase table b' → i < i'

theorem mappable_iff_nonempty : Mappable table ↔
    (eligibleSlots table).Nonempty ∧ (mappedIndices table).Nonempty := by
  simp [Mappable, Finset.Nonempty, eligibleSlots, mappedIndices]

theorem fits_sameBase : Fits sameBase table b i ↔ b ∈ eligibleSlots table ∧
    i ∈ mappedIndices table ∧ resourceBase table i = barBase table b := by
  simp [Fits, eligibleSlots, mappedIndices, sameBase]

theorem fits_any : Fits (fun _ _ => true) table b i ↔ b ∈ eligibleSlots table ∧
    i ∈ mappedIndices table := by
  simp [Fits, eligibleSlots, mappedIndices]

section Association

variable (hc : Consistent table)
  (hbars : ∀ b, (table.bars b).mappedResource = kInvalidResourceIndex)
include hc

theorem mem_resourceIndices_of_mapped (h : i ∈ mappedIndices table) :
    i ∈ resourceIndices table := by
  rw [mappedIndices, Finset.mem_filter] at h
  obtain ⟨map, hm⟩ := Option.isSome_iff_exists.mp h.2
  exact mem_resourceIndices.mpr (hc.resource i map hm).1

include hbars

/-- What the second pass starts from, and where it ends. -/
theorem assigned_association :
    assigned (associateFallback (associateExact table)) = bothPasses table := by
  rw [assigned_associateFallback (consistent_associateExact hc hbars) (sameDevice_pass _),
    assigned_associateExact hc hbars]
  rfl

theorem names_association_iff :
    Names (associateFallback (associateExact table)) b i ↔ bothPasses table b = some i := by
  rw [← assigned_eq_some, assigned_association hc hbars]

omit hbars in
/-- A slot that the first pass leaves out finds all resources of its base with lower slots. -/
theorem taken_of_exact_eq_none (h : exactPass table b = none) (hb : b ∈ eligibleSlots table)
    (hi : i ∈ mappedIndices table) (hbase : resourceBase table i = barBase table b) :
    ∃ b', b' < b ∧ barBase table b' = barBase table b ∧ exactPass table b' = some i := by
  have hnd := List.nodup_finRange kMaxBars
  obtain ⟨before, after, hl⟩ := List.append_of_mem (List.mem_finRange b)
  unfold exactPass at h ⊢
  rw [hl] at h hnd
  obtain ⟨b', hb'⟩ := Greedy.pass_exhausted hnd h (mem_resourceIndices_of_mapped hc hi)
    (fits_sameBase.mpr ⟨hb, hi, hbase⟩)
  have hmem : b' ∈ before := by
    by_contra hn
    rw [Greedy.pass_of_not_mem hn] at hb'
    simp at hb'
  have hfits := (Greedy.pass_fits (List.nodup_append.mp hnd).1 rfl hb').1
  refine ⟨b', lt_of_turn hl hmem, ?_, ?_⟩
  · rw [← hbase, (fits_sameBase.mp hfits).2.2]
  · rw [hl, Greedy.pass_append]
    exact Greedy.pass_keeps hb'

/-- A slot with a resource of another base, or none, was left out by the first pass. -/
theorem exact_eq_none
    (h : ∀ i, Names (associateFallback (associateExact table)) b i →
      resourceBase table i ≠ barBase table b) : exactPass table b = none := by
  by_contra hne
  obtain ⟨i, hi⟩ := Option.ne_none_iff_exists'.mp hne
  refine h i ((names_association_iff hc hbars).mpr (Greedy.pass_keeps hi)) ?_
  exact (fits_sameBase.mp (Greedy.pass_fits (List.nodup_finRange kMaxBars) rfl hi).1).2.2

theorem association_priority (hb : b ∈ eligibleSlots table)
    (h : ∀ i, Names (associateFallback (associateExact table)) b i →
      resourceBase table i ≠ barBase table b)
    (hi : i ∈ mappedIndices table) (hbase : resourceBase table i = barBase table b) :
    ∃ b', b' < b ∧ barBase table b' = barBase table b ∧
      Names (associateFallback (associateExact table)) b' i := by
  obtain ⟨b', hlt, hbase', hb'⟩ :=
    taken_of_exact_eq_none hc (exact_eq_none hc hbars h) hb hi hbase
  exact ⟨b', hlt, hbase', (names_association_iff hc hbars).mpr (Greedy.pass_keeps hb')⟩

/-- What the second pass gives a slot has another base, since the first would have given it. -/
theorem association_fallback (h : Names (associateFallback (associateExact table)) b i) :
    ((associateExact table).bars b).mappedResource = kInvalidResourceIndex ↔
      resourceBase table i ≠ barBase table b := by
  have hexact := consistent_associateExact hc hbars
  rw [← hexact.assigned_eq_none, assigned_associateExact hc hbars]
  constructor
  · intro hnone hbase
    have hb := (names_association_iff hc hbars).mp h
    have hfits := fits_any.mp (Greedy.pass_fits (List.nodup_finRange kMaxBars) hnone hb).1
    obtain ⟨b', hlt, -, hb'⟩ := taken_of_exact_eq_none hc hnone hfits.1 hfits.2 hbase
    have hname := (names_association_iff hc hbars).mpr (Greedy.pass_keeps hb')
    rw [(consistent_association hc hbars).injective b' b i hname h] at hlt
    exact lt_irrefl b hlt
  · intro hbase
    exact exact_eq_none hc hbars (fun j hj => by rwa [hj.unique h])

theorem association_order {b' : Fin kMaxBars} {i' : Fin kMaxResources} (hlt : b < b')
    (hb : Names (associateFallback (associateExact table)) b i)
    (hb' : Names (associateFallback (associateExact table)) b' i')
    (hbase : resourceBase table i ≠ barBase table b)
    (hbase' : resourceBase table i' ≠ barBase table b') : i < i' := by
  have hnone := exact_eq_none hc hbars (b := b) (fun j hj => by rwa [hj.unique hb])
  have hnone' := exact_eq_none hc hbars (b := b') (fun j hj => by rwa [hj.unique hb'])
  rw [names_association_iff hc hbars] at hb hb'
  have hnd := List.nodup_finRange kMaxBars
  have hfits := fits_any.mp (Greedy.pass_fits hnd hnone hb).1
  have hfits' := fits_any.mp (Greedy.pass_fits hnd hnone' hb').1
  -- the second pass comes to `b` first, and then to `b'`
  obtain ⟨before, rest, hl⟩ := List.append_of_mem (List.mem_finRange b)
  have hmem : b' ∈ rest := by
    have hin := List.mem_finRange b'
    rw [hl] at hin
    rcases List.mem_append.mp hin with hin | hin
    · exact absurd (lt_of_turn hl hin) (lt_asymm hlt)
    · rcases List.mem_cons.mp hin with rfl | hin
      · exact absurd hlt (lt_irrefl _)
      · exact hin
  obtain ⟨between, after, rfl⟩ := List.append_of_mem hmem
  unfold bothPasses at hb hb'
  rw [hl] at hb hb' hnd
  obtain ⟨u, v, w, hitems⟩ := Greedy.pass_order hnd hnone hnone' hb hb'
    (fits_any.mpr ⟨hfits.1, hfits'.2⟩)
  have hsorted := (List.pairwise_lt_finRange kMaxResources).sublist
    (List.take_sublist table.resourceCount.toNat _)
  change (resourceIndices table).Pairwise _ at hsorted
  rw [hitems, List.pairwise_append, List.pairwise_cons] at hsorted
  exact hsorted.2.1.1 i' (by simp)

theorem association_maximal (hb : b ∈ eligibleSlots table)
    (h : b ∉ servedSlots (associateFallback (associateExact table)))
    (hi : i ∈ mappedIndices table) :
    ((associateFallback (associateExact table)).resources i).claimed = true := by
  have hcons := consistent_association hc hbars
  rw [servedSlots, Finset.mem_filter, not_and, not_not] at h
  have hnone := hcons.assigned_eq_none.mpr (h (Finset.mem_univ b))
  rw [← hcons.taken_iff, assigned_association hc hbars]
  rw [assigned_association hc hbars] at hnone
  unfold bothPasses at hnone ⊢
  have hnd := List.nodup_finRange kMaxBars
  obtain ⟨before, after, hl⟩ := List.append_of_mem (List.mem_finRange b)
  rw [hl] at hnone hnd ⊢
  have htaken := Greedy.pass_exhausted hnd hnone (mem_resourceIndices_of_mapped hc hi)
    (fits_any.mpr ⟨hb, hi⟩)
  rw [Greedy.pass_append]
  exact htaken.pass _

theorem association_card :
    (servedSlots (associateFallback (associateExact table))).card =
      min (eligibleSlots table).card (mappedIndices table).card := by
  have hcons := consistent_association hc hbars
  have hsame := sameDevice_association table
  have hfits : ∀ b i, assigned (associateFallback (associateExact table)) b = some i →
      b ∈ eligibleSlots table ∧ i ∈ mappedIndices table := by
    intro b i ha
    have hb := assigned_eq_some.mp ha
    rcases hcons.slot b with hn | ⟨j, map, hj, hm, -, -, hel⟩
    · exact absurd hb (not_names_of_invalid hn i)
    · rw [hsame.eligible] at hel
      rw [hb.unique hj]
      rw [hsame.map] at hm
      simp [eligibleSlots, mappedIndices, hel, hm]
  have hserved : servedSlots (associateFallback (associateExact table)) =
      (eligibleSlots table).filter
        (fun b => assigned (associateFallback (associateExact table)) b ≠ none) := by
    ext b
    rw [servedSlots, Finset.mem_filter, Finset.mem_filter, Ne, ← hcons.assigned_eq_none]
    constructor
    · rintro ⟨-, hne⟩
      obtain ⟨i, hi⟩ := Option.ne_none_iff_exists'.mp hne
      exact ⟨(hfits b i hi).1, hne⟩
    · rintro ⟨-, hne⟩
      exact ⟨Finset.mem_univ b, hne⟩
  rw [hserved]
  refine Greedy.card_assigned hcons.assigned_injective hfits ?_
  by_cases hall : ∀ b ∈ eligibleSlots table,
      assigned (associateFallback (associateExact table)) b ≠ none
  · exact Or.inl hall
  · right
    push Not at hall
    obtain ⟨b, hb, hnone⟩ := hall
    intro i hi
    rw [hcons.taken_iff]
    refine association_maximal hc hbars hb ?_ hi
    rw [hserved, Finset.mem_filter]
    exact fun hm => hm.2 hnone

theorem associated_association : Associated table (associateFallback (associateExact table)) where
  device := sameDevice_association table
  consistent := consistent_association hc hbars
  card := association_card hc hbars
  maximal := fun _ hb h _ hi => association_maximal hc hbars hb h hi
  priority := fun _ hb h _ hi hbase => association_priority hc hbars hb h hi hbase
  fallback := fun _ _ h => association_fallback hc hbars h
  order := fun _ _ _ _ hlt hb hb' hbase hbase' =>
    association_order hc hbars hlt hb hb' hbase hbase'

end Association

/-! ## What the device offers -/

/-- The map that an event gives for resource `i`. -/
def offer (i : Fin kMaxResources) : DeviceEvent → Option IOMemoryMap
  | ⟨.mapDeviceMemoryWithIndex index, map⟩ => if index = UInt32.ofNat i.val then map else none
  | _ => none

/-- The map that was given for resource `i`. -/
def offered (t : List DeviceEvent) (i : Fin kMaxResources) : Option IOMemoryMap :=
  t.findSome? (offer i)

theorem offered_append (t u : List DeviceEvent) :
    offered (t ++ u) i = (offered t i).or (offered u i) := List.findSome?_append

theorem offered_eq_none {t : List DeviceEvent} (h : ∀ e ∈ t, e.op.kind ≠ .map) :
    offered t i = none := by
  rw [offered, List.findSome?_eq_none_iff]
  rintro ⟨op, r⟩ he
  have hk := h _ he
  cases op <;> first | rfl | exact absurd rfl hk

/-- A turn of the mapping loop. -/
theorem offered_mapResource {visited : List (Fin kMaxResources)} {t u : List DeviceEvent}
    {acc acc' : PciBarState × Bool}
    (hm : ∀ j, (acc.1.resources j).map = offered t j) (hn : ∀ j, j ∉ visited → offered t j = none)
    (hi : i ∉ visited) (h : Runs (mapResource acc i) u acc') :
    (∀ j, (acc'.1.resources j).map = offered (t ++ u) j) ∧
      ∀ j, j ∉ visited ++ [i] → offered (t ++ u) j = none := by
  unfold mapResource at h
  obtain ⟨answer, u', rfl, hk⟩ := runs_ask_bind.mp h
  have hnew : ∀ j, offered (⟨.mapDeviceMemoryWithIndex (UInt32.ofNat i.val), answer⟩ :: u') j =
      if j = i then answer.or (offered u' j) else offered u' j := by
    intro j
    by_cases hj : j = i
    · simp only [offered, List.findSome?_cons, offer, hj, if_true]
      cases answer <;> rfl
    · have hne : UInt32.ofNat i.val ≠ UInt32.ofNat j.val := fun he => hj (resourceIndex_inj he).symm
      simp [offered, offer, hne, hj]
  have hrest : ∀ j, j ∉ visited ++ [i] → u' = [] → offered (t ++
      ⟨.mapDeviceMemoryWithIndex (UInt32.ofNat i.val), answer⟩ :: u') j = none := by
    rintro j hj rfl
    rw [List.mem_append, List.mem_singleton, not_or] at hj
    rw [offered_append, hnew, hn j hj.1, if_neg hj.2]
    rfl
  cases answer with
  | none =>
    obtain ⟨rfl, rfl⟩ := runs_pure.mp hk
    refine ⟨?_, fun j hj => hrest j hj rfl⟩
    intro j
    rw [offered_append, hnew, hm]
    simp [offered]
  | some map =>
    obtain ⟨rfl, rfl⟩ := runs_pure.mp hk
    refine ⟨?_, fun j hj => hrest j hj rfl⟩
    intro j
    rw [offered_append, hnew]
    by_cases hj : j = i
    · rw [hj, setResource_resources_self, hn i hi, if_pos rfl]
      rfl
    · rw [setResource_resources_of_ne _ _ _ hj, hm, if_neg hj]
      simp [offered]

/-- The table before the association: nothing associated, and the maps that were given. -/
theorem gather_spec {before : PciBarState} {u : List DeviceEvent}
    (h : Runs (gather before) u table) :
    Consistent table ∧ (∀ b, (table.bars b).mappedResource = kInvalidResourceIndex) ∧
      ∀ i, (table.resources i).map = offered u i := by
  obtain ⟨tc, tm, count, decoded, any, rfl, hdec, hmap⟩ := runs_gather h
  obtain ⟨-, hc, hbars, -, -, -⟩ := gathered hdec hmap
  refine ⟨hc, hbars, ?_⟩
  have hlinks := sameLinks_decodeBars hdec
  have hfresh : ∀ i, (({ decoded with
      resourceCount := clampResourceCount count } : PciBarState).resources i).map = none := by
    intro i
    rw [hlinks.resources]
    rfl
  have hall := Runs.foldlM (I := fun visited t (acc : PciBarState × Bool) =>
    (∀ j, (acc.1.resources j).map = offered t j) ∧ ∀ j, j ∉ visited → offered t j = none) hmap
    ⟨hfresh, fun _ _ => rfl⟩ (by
      rintro visited i rest t u acc acc' hl ⟨hm, hn⟩ hi
      exact offered_mapResource hm hn (not_visited (nodup_resourceIndices _) hl) hi)
  intro i
  have htc : offered tc i = none := by
    refine offered_eq_none ?_
    intro e he
    obtain ⟨offset, ho⟩ := uses_decodeBars (reset before) tc decoded hdec e he
    simp [ho, DeviceOp.kind]
  rw [hall.1, offered_append, htc]
  rfl

/-! ## mapDeviceBars -/

/--
What `mapDeviceBars` makes of the slots it decodes and of the maps it is given. It asks for a map of
each of the first eight resources once; it succeeds exactly if there is an eligible slot and a map,
and otherwise gives every map back.
-/
theorem association_outcome {before state : PciBarState} {ok : Bool} {t : List DeviceEvent}
    (h : Runs (mapDeviceBars true before) t (ok, state)) :
    ∃ u w table count, t = u ++ w ∧ Only [.drop] w ∧ Runs (gather before) u table ∧
      u.filterMap countGiven = [count] ∧
      u.filterMap askedIndex =
        (List.range (min count.toNat kMaxResources)).map UInt32.ofNat ∧
      (∀ i, (table.resources i).map = offered u i) ∧
      (ok = true ↔ (eligibleSlots table).Nonempty ∧ (mappedIndices table).Nonempty) ∧
      (ok = true → Associated table state) ∧
      (ok = false → state = reset before ∧ Undone t) := by
  obtain ⟨u, w, table, ht, hw, hgather, hok, hstate⟩ := mapDeviceBars_gather h
  obtain ⟨hc, hbars, hmap⟩ := gather_spec hgather
  obtain ⟨count, hcount, hasked⟩ := asked_gather hgather
  refine ⟨u, w, table, count, ht, hw, hgather, hcount, hasked, hmap,
    hok.trans mappable_iff_nonempty, ?_, ?_⟩
  · intro htrue
    rw [hstate htrue]
    exact associated_association hc hbars
  · intro hfalse
    rcases mapDeviceBars_spec h with ⟨htrue, -⟩ | ⟨-, hreset, hundone⟩
    · rw [hfalse] at htrue
      simp at htrue
    · exact ⟨hreset, hundone⟩

theorem association_outcome_8897 :
    ∃ u w table, ((mapDeviceBars true {}).exec device8897.environment []).1 = u ++ w ∧
      Runs (gather {}) u table ∧ u.filterMap askedIndex = [0, 1] ∧ Associated table table8897 := by
  obtain ⟨u, w, table, count, ht, hw, hgather, hcount, hasked, -, -, hserved, -⟩ :=
    association_outcome runs_table8897
  have htold : (u ++ w).filterMap countGiven = [2] := by
    rw [← ht]
    decide +kernel
  rw [List.filterMap_append, hcount, hw.countGiven_eq_nil] at htold
  obtain rfl : count = 2 := by simpa using htold
  exact ⟨u, w, table, ht, hgather, hasked, hserved rfl⟩

end PciBars

end MarvellW8897
