import MarvellW8897.Properties.Matching

/-!
# Slots that get a resource of another base

A provider offers a list of memory resources and fails to map some of them. A slot whose own
resource is among the failures is served by the second pass, which does not look at bases.

* `cross_wiring` — which slots get their own resource, and when no slot gets another one.
* `cross_wired` — BAR 0 reaches the expansion ROM when its own resource fails to map.
-/

namespace MarvellW8897

open Effect

namespace PciBars

/-! ## The memory list of the provider -/

/-- What a provider whose memory list has these addresses answers; any map may fail. -/
def listed (list : List UInt64) : DeviceEvent → Bool
  | ⟨.getDeviceMemoryCount, count⟩ => UInt32.toNat count == list.length
  | ⟨.mapDeviceMemoryWithIndex index, some map⟩ =>
    list[index.toNat]? == some (IOMemoryMap.physicalAddress map)
  | _ => true

/-- Entry `i` of the memory list is a resource of slot `b`. -/
def Own (list : List UInt64) (table : PciBarState) (b : Fin kMaxBars) (i : Fin kMaxResources) :
    Prop :=
  list[i.val]?.map baseOf = some (barBase table b)

instance {list : List UInt64} {table : PciBarState} {b : Fin kMaxBars} {i : Fin kMaxResources} :
    Decidable (Own list table b i) := by
  unfold Own
  infer_instance

/-- Each memory BAR has an entry in the list, and no two have the same base. -/
structure Lists (list : List UInt64) (table : PciBarState) : Prop where
  length_le : list.length ≤ kMaxResources
  own : ∀ b ∈ eligibleSlots table, ∃ i, Own list table b i
  distinct : ∀ b ∈ eligibleSlots table, ∀ b' ∈ eligibleSlots table,
    barBase table b = barBase table b' → b = b'

/-- No slot has a resource of another base. -/
def Uncrossed (state : PciBarState) : Prop :=
  ∀ b i, Names state b i → resourceBase state i = barBase state b

variable {list : List UInt64} {table state : PciBarState} {b : Fin kMaxBars}
  {i : Fin kMaxResources}

theorem SameDevice.eligibleSlots (h : SameDevice table state) :
    eligibleSlots state = eligibleSlots table := by
  unfold PciBars.eligibleSlots
  simp only [h.eligible]

theorem SameDevice.mappedIndices (h : SameDevice table state) :
    mappedIndices state = mappedIndices table := by
  unfold PciBars.mappedIndices
  simp only [h.map]

theorem SameDevice.barBase (h : SameDevice table state) : barBase state b = barBase table b := by
  have hb := congrArg (fun info => baseOf (BarInfo.configValue info)) (h.bars b)
  exact hb

theorem SameDevice.resourceBase (h : SameDevice table state) :
    resourceBase state i = resourceBase table i := by
  have hi := congrArg (fun r => baseOf (ResourceInfo.physicalAddress r)) (h.resources i)
  exact hi

/-- A map that was given is of the entry with its index. -/
theorem address_of_offered {t : List DeviceEvent} {map : IOMemoryMap}
    (hlist : ∀ e ∈ t, listed list e = true) (h : offered t i = some map) :
    list[i.val]? = some map.physicalAddress := by
  obtain ⟨⟨op, r⟩, he, hoffer⟩ := List.exists_of_findSome?_eq_some h
  have hl := hlist _ he
  cases op with
  | mapDeviceMemoryWithIndex index =>
    simp only [offer] at hoffer
    split at hoffer
    · next hindex =>
      change r = some map at hoffer
      subst hoffer
      have hval : index.toNat = i.val := by
        rw [hindex]
        exact UInt32.toNat_ofNat_of_lt' (Nat.lt_trans i.isLt (by decide))
      rw [← hval]
      simpa [listed] using hl
    · simp at hoffer
  | _ => simp [offer] at hoffer

/-! ## Which slots are cross-wired -/

section Wiring

variable (h : Associated table state) (hown : Lists list state)
  (hbase : ∀ b, ∀ i ∈ mappedIndices state,
    Own list state b i ↔ resourceBase state i = barBase state b)
include h

theorem Associated.of_names (hn : Names state b i) :
    b ∈ eligibleSlots state ∧ i ∈ mappedIndices state := by
  rcases h.consistent.slot b with hb | ⟨j, map, hj, hm, -, -, hel⟩
  · exact absurd hn (not_names_of_invalid hb i)
  · rw [hn.unique hj]
    simp [eligibleSlots, mappedIndices, hel, hm]

theorem Associated.exists_names (hs : b ∈ servedSlots state) : ∃ i, Names state b i := by
  rw [servedSlots, Finset.mem_filter] at hs
  rcases h.consistent.slot b with hb | ⟨i, -, hi, -⟩
  · exact absurd hb hs.2
  · exact ⟨i, hi⟩

include hown hbase

/-- A slot with an own resource that is mapped has one: no other slot competes for it. -/
theorem Associated.names_own (hb : b ∈ eligibleSlots state) (hi : i ∈ mappedIndices state)
    (ho : Own list state b i) : ∃ j, Names state b j ∧ resourceBase state j = barBase state b := by
  by_contra hno
  push Not at hno
  rw [h.device.eligibleSlots] at hb
  rw [h.device.mappedIndices] at hi
  have hbase' := (hbase b i (by rwa [h.device.mappedIndices])).mp ho
  rw [h.device.resourceBase, h.device.barBase] at hbase'
  obtain ⟨b', hlt, hsame, hn⟩ := h.priority b hb
    (fun j hj => by rw [← h.device.resourceBase, ← h.device.barBase]; exact hno j hj) i hi hbase'
  have hb' := (h.of_names hn).1
  rw [h.device.eligibleSlots] at hb'
  have heq := hown.distinct b' (by rwa [h.device.eligibleSlots]) b (by rwa [h.device.eligibleSlots])
    (by rw [h.device.barBase, h.device.barBase, hsame])
  rw [heq] at hlt
  exact lt_irrefl b hlt

theorem Associated.uncrossed_iff : Uncrossed state ↔
    (∀ b ∈ eligibleSlots state, ∃ i ∈ mappedIndices state, Own list state b i) ∨
      ∀ i ∈ mappedIndices state, ∃ b, Names state b i ∧ Own list state b i := by
  constructor
  · intro hall
    by_cases hmapped : ∀ b ∈ eligibleSlots state, ∃ i ∈ mappedIndices state, Own list state b i
    · exact Or.inl hmapped
    · right
      push Not at hmapped
      obtain ⟨b, hb, hnone⟩ := hmapped
      -- a resource for `b` would be of another base, so the lower slots have used up all of them
      have hunserved : b ∉ servedSlots state := by
        intro hs
        obtain ⟨i, hi⟩ := h.exists_names hs
        exact hnone i (h.of_names hi).2 ((hbase b i (h.of_names hi).2).mpr (hall b i hi))
      intro i hi
      rw [h.device.eligibleSlots] at hb
      rw [h.device.mappedIndices] at hi
      obtain ⟨b', hb'⟩ := (h.consistent.claimed_iff i).mp (h.maximal b hb hunserved i hi)
      exact ⟨b', hb', (hbase b' i (h.of_names hb').2).mpr (hall b' i hb')⟩
  · rintro (hmapped | hmatched) b i hn
    · obtain ⟨hb, -⟩ := h.of_names hn
      obtain ⟨j, hj, ho⟩ := hmapped b hb
      obtain ⟨k, hk, hbase'⟩ := h.names_own hown hbase hb hj ho
      rwa [hn.unique hk]
    · obtain ⟨b', hb', ho⟩ := hmatched i (h.of_names hn).2
      rw [h.consistent.injective b b' i hn hb']
      exact (hbase b' i (h.of_names hn).2).mp ho

end Wiring

/--
After a mapping that succeeds, a slot has a resource of its base if one of its own could be mapped.
Otherwise it has a resource of another base, or every mapped resource is claimed. No slot is
cross-wired exactly if every slot has an own resource that is mapped, or the slots with their own
resources use up all that are mapped. A map of each entry of the list was asked for once, and the
entries that are mapped are those for which there was one.
-/
theorem cross_wiring {before : PciBarState} {t : List DeviceEvent}
    (h : Runs (mapDeviceBars true before) t (true, state))
    (hlist : ∀ e ∈ t, listed list e = true) (hown : Lists list state) :
    (∀ b ∈ eligibleSlots state, (∃ i ∈ mappedIndices state, Own list state b i) →
      ∃ i, Names state b i ∧ resourceBase state i = barBase state b) ∧
    (∀ b ∈ eligibleSlots state, (∀ i ∈ mappedIndices state, ¬ Own list state b i) →
      (∃ i, Names state b i ∧ resourceBase state i ≠ barBase state b) ∨
        (b ∉ servedSlots state ∧ ∀ i ∈ mappedIndices state, (state.resources i).claimed = true)) ∧
    (Uncrossed state ↔
      (∀ b ∈ eligibleSlots state, ∃ i ∈ mappedIndices state, Own list state b i) ∨
        ∀ i ∈ mappedIndices state, ∃ b, Names state b i ∧ Own list state b i) ∧
    t.filterMap askedIndex = (List.range list.length).map UInt32.ofNat ∧
    ∀ i, (state.resources i).map = offered t i := by
  obtain ⟨u, w, table, rfl, hw, hgather, -, hstate⟩ := mapDeviceBars_gather h
  obtain ⟨hc, hbars, hmap⟩ := gather_spec hgather
  have hassoc : Associated table state := by
    rw [hstate rfl]
    exact associated_association hc hbars
  have hbase : ∀ b, ∀ i ∈ mappedIndices state,
      Own list state b i ↔ resourceBase state i = barBase state b := by
    intro b i hi
    rw [mappedIndices, Finset.mem_filter] at hi
    obtain ⟨map, hm⟩ := Option.isSome_iff_exists.mp hi.2
    obtain ⟨-, -, -, haddress⟩ := hassoc.consistent.resource i map hm
    rw [hassoc.device.map, hmap] at hm
    rw [Own, address_of_offered (fun e he => hlist e (List.mem_append_left w he)) hm, resourceBase,
      haddress]
    simp
  refine ⟨?_, ?_, hassoc.uncrossed_iff hown hbase, ?_, ?_⟩
  · rintro b hb ⟨i, hi, ho⟩
    exact hassoc.names_own hown hbase hb hi ho
  · intro b hb hnone
    by_cases hs : b ∈ servedSlots state
    · obtain ⟨i, hn⟩ := hassoc.exists_names hs
      have hi := (hassoc.of_names hn).2
      exact Or.inl ⟨i, hn, fun he => hnone i hi ((hbase b i hi).mpr he)⟩
    · refine Or.inr ⟨hs, ?_⟩
      intro i hi
      rw [hassoc.device.eligibleSlots] at hb
      rw [hassoc.device.mappedIndices] at hi
      exact hassoc.maximal b hb hs i hi
  · obtain ⟨count, hcount, hasked⟩ := asked_gather hgather
    have hlength : count.toNat = list.length :=
      eq_of_beq (hlist _ (List.mem_append_left w (mem_of_countGiven hcount)))
    rw [List.filterMap_append, hw.askedIndex_eq_nil, List.append_nil, hasked, hlength,
      Nat.min_eq_left hown.length_le]
  · intro i
    rw [hassoc.device.map, hmap, offered_append, offered_eq_none fun e he => hw.kind_ne he,
      Option.or_none]

/-! ## A ROM in place of BAR 0 -/

/-- The addresses of the two BARs of an 88W8897 and of its expansion ROM. -/
def romList : List UInt64 := [0xF0000000, 0xF0100000, 0xFEB00000]

/-- An 88W8897 with an expansion ROM; the resource of BAR 0 cannot be mapped. -/
def deviceWithRom : Device where
  vendorId := kVendorIdMarvell88W8897
  deviceId := kDeviceIdMarvell88W8897
  bars := [0xF0000004, 0, 0xF0100004, 0, 0, 0]
  memory := [
    none,
    some { handle := 1, virtualAddress := 0x1000000, length := 0x10000
           physicalAddress := 0xF0100000 },
    some { handle := 2, virtualAddress := 0x2000000, length := 0x8000
           physicalAddress := 0xFEB00000 }]

/-- The table that `mapDeviceBars` builds for it. -/
def tableWithRom : PciBarState :=
  ((mapDeviceBars true {}).exec deviceWithRom.environment []).2.2

theorem runs_tableWithRom : Runs (mapDeviceBars true {})
    ((mapDeviceBars true {}).exec deviceWithRom.environment []).1 (true, tableWithRom) :=
  runs_mapDeviceBars_exec (by decide +kernel)

theorem lists_tableWithRom : Lists romList tableWithRom where
  length_le := by decide
  own := by decide +kernel
  distinct := by decide +kernel

theorem listed_tableWithRom :
    ∀ e ∈ ((mapDeviceBars true {}).exec deviceWithRom.environment []).1,
      listed romList e = true := by
  decide +kernel

theorem cross_wiring_rom :
    ∃ i, Names tableWithRom 2 i ∧ resourceBase tableWithRom i = barBase tableWithRom 2 :=
  (cross_wiring runs_tableWithRom listed_tableWithRom lists_tableWithRom).1 2 (by decide +kernel)
    ⟨1, by decide +kernel, by decide +kernel⟩

/-- The slot of BAR 0 gets the expansion ROM, since its own resource cannot be mapped. -/
theorem cross_wired :
    ¬ ∀ list before t state, Runs (mapDeviceBars true before) t (true, state) →
      (∀ e ∈ t, listed list e = true) → Lists list state →
      Uncrossed state ∧ ∀ b ∈ eligibleSlots state,
        (∀ i ∈ mappedIndices state, ¬ Own list state b i) → b ∉ servedSlots state := by
  intro h
  have hrom := h romList {} _ tableWithRom runs_tableWithRom listed_tableWithRom lists_tableWithRom
  have hname : Names tableWithRom 0 2 := by
    unfold Names
    decide +kernel
  have hne : resourceBase tableWithRom 2 ≠ barBase tableWithRom 0 := by decide +kernel
  exact hne (hrom.1 0 2 hname)

end PciBars

end MarvellW8897
