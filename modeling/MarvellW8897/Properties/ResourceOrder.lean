import MarvellW8897.Greedy.Counting
import MarvellW8897.Properties.CrossWiring
import MarvellW8897.Properties.Decoding

/-!
# The order of the device memory

Nothing says in which order a provider lists the memory of a device. Which slots are mapped, and
which of them with a resource of their own base, is the same for every order.

* `HasOwn` — the slot holds a resource of its own base.
* `Reordered` — two tables of one device, with the same maps under other indices.
* `offered_gather` — a table is offered what the list has.
* `resource_order` — what two runs of `mapDeviceBars` on such lists have in common.
-/

namespace MarvellW8897

open Effect

namespace PciBars

variable {table table' state state' : PciBarState} {b : Fin kMaxBars} {i : Fin kMaxResources}
  {σ : Equiv.Perm (Fin kMaxResources)} {d : Fin kMaxBars → UInt32}
  {regions regions' : List (Option IOMemoryMap)}

/-- The slot holds a resource of its own base. -/
def HasOwn (state : PciBarState) (b : Fin kMaxBars) : Prop :=
  ∃ i, Names state b i ∧ resourceBase state i = barBase state b

/-- A table before the association. -/
structure Gathered (table : PciBarState) : Prop where
  consistent : Consistent table
  unassociated : ∀ b, (table.bars b).mappedResource = kInvalidResourceIndex

/-- The slots are the same, and resource `σ i` of the second table is resource `i` of the first. -/
structure Reordered (σ : Equiv.Perm (Fin kMaxResources)) (table table' : PciBarState) : Prop where
  bars : ∀ b, decodedPart (table'.bars b) = decodedPart (table.bars b)
  maps : ∀ i, (table'.resources (σ i)).map = (table.resources i).map

/-! ## The classes of both passes -/

theorem classes_exact (table : PciBarState) : Greedy.Classes (Fits sameBase table)
    (· ∈ eligibleSlots table) (· ∈ mappedIndices table) (barBase table) (resourceBase table) :=
  ⟨fun _ _ => fits_sameBase⟩

theorem classes_fallback (table : PciBarState) : Greedy.Classes (Fits (fun _ _ => true) table)
    (· ∈ eligibleSlots table) (· ∈ mappedIndices table) (fun _ => ()) (fun _ => ()) :=
  ⟨fun _ _ => by simp [fits_any]⟩

/-- The free items of a class, as a set. -/
theorem length_freeItems_eq {κ : Type} (h : Consistent table) (key : Fin kMaxResources → κ)
    (m : Fin kMaxBars → Option (Fin kMaxResources)) (k : κ)
    [DecidablePred fun i => key i = k ∧ ¬ Greedy.Taken m i] :
    (Greedy.freeItems (· ∈ mappedIndices table) key (resourceIndices table) m k).length =
      ((mappedIndices table).filter fun i => key i = k ∧ ¬ Greedy.Taken m i).card := by
  classical
  have hnodup :
      (Greedy.freeItems (· ∈ mappedIndices table) key (resourceIndices table) m k).Nodup :=
    (nodup_resourceIndices table).filter _
  rw [← List.toFinset_card_of_nodup hnodup]
  congr 1
  ext i
  simp only [Greedy.freeItems, List.mem_toFinset, List.mem_filter, Finset.mem_filter,
    decide_eq_true_eq]
  exact ⟨fun hi => hi.2, fun hi => ⟨mem_resourceIndices_of_mapped h hi.1, hi⟩⟩

namespace Reordered

theorem eligibleSlots (h : Reordered σ table table') :
    eligibleSlots table' = eligibleSlots table := by
  unfold PciBars.eligibleSlots
  have heligible : ∀ b, (table'.bars b).eligible = (table.bars b).eligible := by
    intro b
    have hb := congrArg BarInfo.eligible (h.bars b)
    exact hb
  simp only [heligible]

theorem barBase (h : Reordered σ table table') : barBase table' = barBase table := by
  funext b
  have hb := congrArg (fun info => baseOf (BarInfo.configValue info)) (h.bars b)
  exact hb

theorem mem_mappedIndices (h : Reordered σ table table') :
    σ i ∈ mappedIndices table' ↔ i ∈ mappedIndices table := by
  simp [mappedIndices, h.maps]

theorem resourceBase (h : Reordered σ table table') (hc : Consistent table)
    (hc' : Consistent table') (hi : i ∈ mappedIndices table) :
    resourceBase table' (σ i) = resourceBase table i := by
  obtain ⟨map, hm⟩ := Option.isSome_iff_exists.mp (Finset.mem_filter.mp hi).2
  obtain ⟨-, -, -, ha⟩ := hc.resource i map hm
  obtain ⟨-, -, -, ha'⟩ := hc'.resource (σ i) map ((h.maps i).trans hm)
  rw [PciBars.resourceBase, PciBars.resourceBase, ha, ha']

/-- Both lists have as many free resources of a base. -/
theorem freeItems_exact (h : Reordered σ table table') (hc : Consistent table)
    (hc' : Consistent table') (k : UInt64) :
    (Greedy.freeItems (· ∈ mappedIndices table) (PciBars.resourceBase table) (resourceIndices table)
      (fun _ : Fin kMaxBars => none) k).length =
    (Greedy.freeItems (· ∈ mappedIndices table') (PciBars.resourceBase table')
      (resourceIndices table') (fun _ : Fin kMaxBars => none) k).length := by
  classical
  rw [length_freeItems_eq hc, length_freeItems_eq hc']
  refine Finset.card_bij (fun i _ => σ i) ?_ (fun _ _ _ _ he => σ.injective he) ?_
  · intro i hi
    obtain ⟨hi, hk, -⟩ := Finset.mem_filter.mp hi
    exact Finset.mem_filter.mpr ⟨h.mem_mappedIndices.mpr hi,
      (h.resourceBase hc hc' hi).trans hk, by simp [Greedy.Taken]⟩
  · intro j hj
    obtain ⟨hj, hk, -⟩ := Finset.mem_filter.mp hj
    obtain ⟨i, rfl⟩ := σ.surjective j
    have hi := h.mem_mappedIndices.mp hj
    exact ⟨i, Finset.mem_filter.mpr ⟨hi, (h.resourceBase hc hc' hi).symm.trans hk,
      by simp [Greedy.Taken]⟩, rfl⟩

/-- The first pass serves the same slots. -/
theorem exactPass_eq_none (h : Reordered σ table table') (hc : Consistent table)
    (hc' : Consistent table') : exactPass table' b = none ↔ exactPass table b = none := by
  have hclasses := classes_exact table'
  rw [h.eligibleSlots, h.barBase] at hclasses
  exact Greedy.pass_serves_congr hclasses (classes_exact table) (nodup_resourceIndices table')
    (nodup_resourceIndices table) (List.nodup_finRange kMaxBars) (fun _ => Iff.rfl)
    fun k => (h.freeItems_exact hc hc' k).symm

open Classical in
/-- As many resources are left for the second pass. -/
theorem card_untaken (h : Reordered σ table table') (hc : Consistent table)
    (hc' : Consistent table') :
    ((mappedIndices table).filter fun i => ¬ Greedy.Taken (exactPass table) i).card =
      ((mappedIndices table').filter fun i => ¬ Greedy.Taken (exactPass table') i).card := by
  have hmapped : (mappedIndices table).card = (mappedIndices table').card := by
    refine Finset.card_bij (fun i _ => σ i) (fun _ hi => h.mem_mappedIndices.mpr hi)
      (fun _ _ _ _ he => σ.injective he) ?_
    intro j hj
    obtain ⟨i, rfl⟩ := σ.surjective j
    exact ⟨i, h.mem_mappedIndices.mp hj, rfl⟩
  have htaken : ∀ table : PciBarState,
      ((mappedIndices table).filter fun i => Greedy.Taken (exactPass table) i).card =
        (Finset.univ.filter fun b => exactPass table b ≠ none).card := by
    intro table
    refine Greedy.card_taken (Greedy.Injective.pass (by simp [Greedy.Injective]) _) ?_
    intro b i hb
    have hfits := (Greedy.pass_fits (List.nodup_finRange kMaxBars) rfl hb).1
    exact ⟨Finset.mem_univ b, (fits_sameBase.mp hfits).2.1⟩
  have hserved : (Finset.univ.filter fun b => exactPass table b ≠ none) =
      Finset.univ.filter fun b => exactPass table' b ≠ none := by
    simp only [Ne, h.exactPass_eq_none hc hc']
  have hsum := Finset.card_filter_add_card_filter_not (s := mappedIndices table)
    fun i => Greedy.Taken (exactPass table) i
  have hsum' := Finset.card_filter_add_card_filter_not (s := mappedIndices table')
    fun i => Greedy.Taken (exactPass table') i
  rw [htaken, hserved, ← htaken table'] at hsum
  omega

/-- Both passes serve the same slots. -/
theorem bothPasses_eq_none (h : Reordered σ table table') (hc : Consistent table)
    (hc' : Consistent table') : bothPasses table' b = none ↔ bothPasses table b = none := by
  have hclasses := classes_fallback table'
  rw [h.eligibleSlots] at hclasses
  refine Greedy.pass_serves_congr hclasses (classes_fallback table) (nodup_resourceIndices table')
    (nodup_resourceIndices table) (List.nodup_finRange kMaxBars)
    (fun _ => h.exactPass_eq_none hc hc') fun k => ?_
  classical
  rw [length_freeItems_eq hc, length_freeItems_eq hc']
  simpa only [true_and] using (h.card_untaken hc hc').symm

end Reordered

/-! ## What the slots hold -/

namespace Gathered

theorem served_iff (h : Gathered table) :
    b ∈ servedSlots (associateFallback (associateExact table)) ↔ bothPasses table b ≠ none := by
  have hcons := consistent_association h.consistent h.unassociated
  rw [servedSlots, Finset.mem_filter, Ne, ← hcons.assigned_eq_none,
    assigned_association h.consistent h.unassociated]
  exact and_iff_right (Finset.mem_univ b)

theorem hasOwn_of_exact (h : Gathered table) (hi : exactPass table b = some i) :
    Names (associateFallback (associateExact table)) b i ∧ i ∈ mappedIndices table ∧
      resourceBase table i = barBase table b := by
  have hfits := (Greedy.pass_fits (List.nodup_finRange kMaxBars) rfl hi).1
  exact ⟨(names_association_iff h.consistent h.unassociated).mpr (Greedy.pass_keeps hi),
    (fits_sameBase.mp hfits).2⟩

theorem hasOwn_iff (h : Gathered table) :
    HasOwn (associateFallback (associateExact table)) b ↔ exactPass table b ≠ none := by
  have hsame := sameDevice_association table
  constructor
  · rintro ⟨i, hn, hbase⟩
    rw [hsame.resourceBase, hsame.barBase] at hbase
    have hexact := (consistent_associateExact h.consistent h.unassociated)
    rw [← assigned_associateExact h.consistent h.unassociated, Ne, hexact.assigned_eq_none,
      association_fallback h.consistent h.unassociated hn]
    exact fun hne => hne hbase
  · intro hne
    obtain ⟨i, hi⟩ := Option.ne_none_iff_exists'.mp hne
    obtain ⟨hn, -, hbase⟩ := h.hasOwn_of_exact hi
    exact ⟨i, hn, by rw [hsame.resourceBase, hsame.barBase, hbase]⟩

/-- The record of a slot with a resource, in terms of its map. -/
theorem record_eq {map : IOMemoryMap} (h : Gathered table)
    (hn : Names (associateFallback (associateExact table)) b i)
    (hm : (table.resources i).map = some map) :
    (associateFallback (associateExact table)).bars b = { decodedPart (table.bars b) with
      mappedPtr := map.pointer, length := map.length, mappedResource := UInt32.ofNat i.val } := by
  have hsame := sameDevice_association table
  have hcons := consistent_association h.consistent h.unassociated
  rcases hcons.slot b with hb | ⟨j, map', hj, hm', hptr, hlength, -⟩
  · exact absurd hn (not_names_of_invalid hb i)
  · obtain rfl := hn.unique hj
    rw [hsame.map, hm] at hm'
    obtain rfl := Option.some.inj hm'
    rw [← hsame.bars b, ← hptr, ← hlength, ← (show _ = UInt32.ofNat i.val from hn)]
    rfl

end Gathered

/-- In both orders the slot has the only resource of its base. -/
theorem Reordered.own_record (h : Reordered σ table table') (hg : Gathered table)
    (hg' : Gathered table') (hi : exactPass table b = some i)
    (honly : ∀ j ∈ mappedIndices table,
      PciBars.resourceBase table j = PciBars.barBase table b → j = i) :
    (associateFallback (associateExact table')).bars b =
      { (associateFallback (associateExact table)).bars b with
        mappedResource := UInt32.ofNat (σ i).val } := by
  have hne : exactPass table' b ≠ none := by
    rw [Ne, h.exactPass_eq_none hg.consistent hg'.consistent, hi]
    simp
  obtain ⟨j, hj⟩ := Option.ne_none_iff_exists'.mp hne
  obtain ⟨hn', hj', hbase'⟩ := hg'.hasOwn_of_exact hj
  obtain ⟨j, rfl⟩ := σ.surjective j
  have hmem := h.mem_mappedIndices.mp hj'
  rw [h.resourceBase hg.consistent hg'.consistent hmem, h.barBase] at hbase'
  obtain rfl := honly j hmem hbase'
  obtain ⟨hn, -, -⟩ := hg.hasOwn_of_exact hi
  obtain ⟨map, hm⟩ := Option.isSome_iff_exists.mp (Finset.mem_filter.mp hmem).2
  rw [hg'.record_eq hn' ((h.maps j).trans hm), hg.record_eq hn hm, h.bars]

/-! ## The list of regions -/

/--
What a provider with these memory regions answers: how many there are, and a map of each, `none` for
one that cannot be mapped.
-/
def provides (regions : List (Option IOMemoryMap)) : DeviceEvent → Bool
  | ⟨.getDeviceMemoryCount, count⟩ => UInt32.toNat count == regions.length
  | ⟨.mapDeviceMemoryWithIndex index, map⟩ => regions.getD index.toNat none == map
  | _ => true

theorem offer_of_provides {e : DeviceEvent} (h : provides regions e = true) :
    offer i e = if askedIndex e = some (UInt32.ofNat i.val) then regions.getD i.val none
      else none := by
  obtain ⟨op, r⟩ := e
  cases op with
  | mapDeviceMemoryWithIndex index =>
    by_cases hi : index = UInt32.ofNat i.val
    · have hval : index.toNat = i.val := by
        rw [hi]
        exact UInt32.toNat_ofNat_of_lt' (Nat.lt_trans i.isLt (by decide))
      have hr : regions.getD index.toNat none = r := eq_of_beq h
      rw [offer, if_pos hi, askedIndex, if_pos (congrArg some hi), ← hval, hr]
    · rw [offer, if_neg hi, askedIndex, if_neg (fun he => hi (Option.some.inj he))]
  | _ => simp [offer, askedIndex]

/-- A table is offered what the list has. -/
theorem offered_gather {before : PciBarState} {u : List DeviceEvent}
    (h : Runs (gather before) u table) (hp : ∀ e ∈ u, provides regions e = true)
    (hlength : regions.length ≤ kMaxResources) : offered u i = regions.getD i.val none := by
  cases hregion : regions.getD i.val none with
  | none =>
    rw [offered, List.findSome?_eq_none_iff]
    intro e he
    rw [offer_of_provides (hp e he), hregion, ite_self]
  | some map =>
    -- the region is in the list, so the loop comes to it
    have hi : i.val < regions.length := by
      by_contra hn
      rw [List.getD_eq_getElem?_getD, List.getElem?_eq_none (Nat.not_lt.mp hn)] at hregion
      simp at hregion
    obtain ⟨count, hcount, hasked⟩ := asked_gather h
    have hcount' : count.toNat = regions.length := eq_of_beq (hp _ (mem_of_countGiven hcount))
    rw [hcount', Nat.min_eq_left hlength] at hasked
    have hmem : UInt32.ofNat i.val ∈ u.filterMap askedIndex := by
      rw [hasked]
      exact List.mem_map.mpr ⟨i.val, List.mem_range.mpr hi, rfl⟩
    obtain ⟨e, he, hindex⟩ := List.mem_filterMap.mp hmem
    have hoffer : offer i e = some map := by
      rw [offer_of_provides (hp e he), if_pos hindex, hregion]
    cases hfound : offered u i with
    | none =>
      rw [List.findSome?_eq_none_iff.mp hfound e he] at hoffer
      simp at hoffer
    | some map' =>
      obtain ⟨e', he', hoffer'⟩ := List.exists_of_findSome?_eq_some hfound
      rw [offer_of_provides (hp e' he'), hregion] at hoffer'
      split at hoffer'
      · exact hoffer'.symm
      · simp at hoffer'

/-! ## Two runs -/

theorem Decodes.unique {info info' : BarInfo} {slot : Slot} (h : Decodes info slot)
    (h' : Decodes info' slot) : decodedPart info' = decodedPart info := by
  obtain ⟨_, _, _, rawLow, rawHigh, configValue, isMemory, is64Bit, isContinuation, present⟩ := info
  obtain ⟨_, _, _, _, _, _, _, _, _, _⟩ := info'
  obtain ⟨rfl, rfl, hvalue, rfl, rfl, rfl, rfl⟩ := h
  obtain ⟨rfl, rfl, hvalue', rfl, rfl, rfl, rfl⟩ := h'
  obtain rfl := UInt64.toNat_inj.mp (hvalue'.trans hvalue.symm)
  rfl

/-- The table that `mapDeviceBars` associates. -/
theorem mapDeviceBars_table {before : PciBarState} {t : List DeviceEvent} {ok : Bool}
    (h : Runs (mapDeviceBars true before) t (ok, state))
    (hd : ∀ e ∈ t, readsDwords d e = true)
    (hp : ∀ e ∈ t, provides regions e = true) (hlength : regions.length ≤ kMaxResources) :
    ∃ table, Gathered table ∧ (∀ i, (table.resources i).map = regions.getD i.val none) ∧
      List.Forall₂ (fun b slot => Decodes (table.bars b) slot) (List.finRange kMaxBars)
        (scan (List.ofFn d)) ∧
      (ok = true ↔ (eligibleSlots table).Nonempty ∧ (mappedIndices table).Nonempty) ∧
      (ok = true → state = associateFallback (associateExact table)) := by
  obtain ⟨u, w, table, rfl, -, hgather, hok, hstate⟩ := mapDeviceBars_gather h
  obtain ⟨hc, hbars, hmaps⟩ := gather_spec hgather
  refine ⟨table, ⟨hc, hbars⟩, ?_, ?_, hok.trans mappable_iff_nonempty, hstate⟩
  · intro i
    rw [hmaps]
    exact offered_gather hgather (fun e he => hp e (List.mem_append_left w he)) hlength
  · exact decodes_gather hgather (fun e he => hd e (List.mem_append_left w he))

theorem reordered_of_decodes {table table' : PciBarState} {slots : List Slot}
    (h : List.Forall₂ (fun b slot => Decodes (table.bars b) slot) (List.finRange kMaxBars) slots)
    (h' : List.Forall₂ (fun b slot => Decodes (table'.bars b) slot) (List.finRange kMaxBars) slots)
    (hmaps : ∀ i, (table'.resources (σ i)).map = (table.resources i).map) :
    Reordered σ table table' where
  bars := by
    intro b
    have hboth : ∀ (bs : List (Fin kMaxBars)) (slots : List Slot),
        List.Forall₂ (fun b slot => Decodes (table.bars b) slot) bs slots →
        List.Forall₂ (fun b slot => Decodes (table'.bars b) slot) bs slots →
        ∀ b ∈ bs, decodedPart (table'.bars b) = decodedPart (table.bars b) := by
      intro bs slots hs hs'
      induction hs with
      | nil => simp
      | @cons b₁ slot bs slots hb _ ih =>
        obtain ⟨hb', hrest⟩ := List.forall₂_cons.mp hs'
        intro b hmem
        rcases List.mem_cons.mp hmem with rfl | hmem
        · exact hb.unique hb'
        · exact ih hrest b hmem
    exact hboth _ slots h h' b (List.mem_finRange b)
  maps := hmaps

/--
Two runs on a device that lists its memory regions, at most eight, in different orders succeed
alike, and map the same slots, the same of them with a resource of their own base. A slot that holds
the only resource of its base has the same record in both, but for the index of the region.
-/
theorem resource_order {before before' : PciBarState} {t t' : List DeviceEvent} {ok ok' : Bool}
    (h : Runs (mapDeviceBars true before) t (ok, state))
    (h' : Runs (mapDeviceBars true before') t' (ok', state'))
    (hd : ∀ e ∈ t, readsDwords d e = true) (hd' : ∀ e ∈ t', readsDwords d e = true)
    (hp : ∀ e ∈ t, provides regions e = true) (hp' : ∀ e ∈ t', provides regions' e = true)
    (horder : regions.Perm regions') (hlength : regions.length ≤ kMaxResources) :
    ok' = ok ∧ (ok = true → ∀ b, (b ∈ servedSlots state' ↔ b ∈ servedSlots state) ∧
      (HasOwn state' b ↔ HasOwn state b) ∧
      ∀ i, Names state b i → resourceBase state i = barBase state b →
        (∀ j ∈ mappedIndices state, resourceBase state j = barBase state b → j = i) →
        ∃ i' : Fin kMaxResources, regions'[i'.val]? = regions[i.val]? ∧
          state'.bars b = { state.bars b with mappedResource := UInt32.ofNat i'.val }) := by
  obtain ⟨σ, hσ⟩ := Greedy.exists_reindexing horder hlength
  obtain ⟨table, hg, hmap, hdec, hok, hstate⟩ := mapDeviceBars_table h hd hp hlength
  obtain ⟨table', hg', hmap', hdec', hok', hstate'⟩ :=
    mapDeviceBars_table h' hd' hp' (horder.length_eq ▸ hlength)
  have hre : Reordered σ table table' := reordered_of_decodes hdec hdec' fun i => by
    rw [hmap, hmap', List.getD_eq_getElem?_getD, List.getD_eq_getElem?_getD, hσ]
  have hsame : ok' = ok := by
    rw [Bool.eq_iff_iff, hok, hok', hre.eligibleSlots]
    refine and_congr_right fun _ => ⟨?_, ?_⟩
    · rintro ⟨j, hj⟩
      obtain ⟨i, rfl⟩ := σ.surjective j
      exact ⟨i, hre.mem_mappedIndices.mp hj⟩
    · rintro ⟨i, hi⟩
      exact ⟨σ i, hre.mem_mappedIndices.mpr hi⟩
  refine ⟨hsame, fun htrue b => ?_⟩
  obtain rfl := hstate htrue
  obtain rfl := hstate' (hsame.trans htrue)
  refine ⟨?_, ?_, ?_⟩
  · rw [hg.served_iff, hg'.served_iff, Ne, Ne, hre.bothPasses_eq_none hg.consistent hg'.consistent]
  · rw [hg.hasOwn_iff, hg'.hasOwn_iff, Ne, Ne, hre.exactPass_eq_none hg.consistent hg'.consistent]
  · intro i hn hbase honly
    have hdevice := sameDevice_association table
    rw [hdevice.mappedIndices] at honly
    simp only [hdevice.resourceBase, hdevice.barBase] at hbase honly
    obtain ⟨j, hj⟩ := Option.ne_none_iff_exists'.mp (hg.hasOwn_iff.mp ⟨i, hn, by
      rw [hdevice.resourceBase, hdevice.barBase, hbase]⟩)
    obtain rfl := (hg.hasOwn_of_exact hj).1.unique hn
    exact ⟨σ j, hσ j, hre.own_record hg hg' hj honly⟩

/-- The device of `device8897`, with its memory listed the other way round. -/
def deviceSwapped : Device := { device8897 with memory := device8897.memory.reverse }

def tableSwapped : PciBarState :=
  ((mapDeviceBars true {}).exec deviceSwapped.environment []).2.2

theorem resource_order_swapped : servedSlots tableSwapped = servedSlots table8897 ∧
    ∃ i' : Fin kMaxResources, deviceSwapped.memory[i'.val]? = device8897.memory[0]? ∧
      tableSwapped.bars 0 =
        { table8897.bars 0 with mappedResource := UInt32.ofNat i'.val } := by
  have hswapped : Runs (mapDeviceBars true {})
      ((mapDeviceBars true {}).exec deviceSwapped.environment []).1 (true, tableSwapped) :=
    runs_mapDeviceBars_exec (by decide +kernel)
  have hlisted : ∀ e ∈ ((mapDeviceBars true {}).exec device8897.environment []).1,
      provides device8897.memory e = true := by decide +kernel
  have hlisted' : ∀ e ∈ ((mapDeviceBars true {}).exec deviceSwapped.environment []).1,
      provides deviceSwapped.memory e = true := by decide +kernel
  have hboth := (resource_order (d := fun b => device8897.bars.getD b.val 0) runs_table8897
    hswapped (by decide +kernel) (by decide +kernel) hlisted hlisted'
    (List.reverse_perm device8897.memory).symm (by decide)).2 rfl
  have hnames : (table8897.bars 0).mappedResource = 0 := by decide +kernel
  refine ⟨Finset.ext fun b => (hboth b).1, ?_⟩
  exact (hboth 0).2.2 0 hnames (by decide +kernel) (by decide +kernel)

end PciBars

end MarvellW8897
