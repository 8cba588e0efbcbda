import MarvellW8897.Probe.Main
import MarvellW8897.Properties.Lifecycle

/-!
# The probe's candidates

The probe calls a BAR a mapped memory candidate on the strength of eleven exported numbers; the kext
decides about accesses on its own table.

* `candidate_isSome_iff` — the test of the probe, in terms of the slot that was exported.
* `candidate_iff_window` — a candidate is a BAR with a window.
* `candidates_agree` — the two agree in every reachable state.
-/

namespace MarvellW8897

open Effect

variable {platform : Platform} {t : List DeviceEvent} {c c' : Controller} {s : System}
  {calls : List CallRecord} {reply : Reply} {b : Fin kMaxBars}

/-! ## The exported record -/

/-- The arguments of a query for the V2 record. -/
def barInfoArguments (bar : UInt64) : ExternalMethodArguments where
  scalarInput := [bar]
  scalarOutputCount := 11

/-- The number of slot `b`, as a scalar. -/
def barNumber (b : Fin kMaxBars) : UInt64 := UInt64.ofNat b.val

theorem barNumber_toUInt32 (b : Fin kMaxBars) : (barNumber b).toUInt32.toNat = b.val := by
  have hlt := b.isLt
  have hmod : b.val % 2 ^ 64 = b.val := Nat.mod_eq_of_lt (lt_trans hlt (by decide))
  rw [UInt64.toNat_toUInt32, barNumber, UInt64.toNat_ofNat', hmod]
  exact Nat.mod_eq_of_lt (lt_trans hlt (by decide))

/-- The fields of the V2 record of a slot, `address` being its last one. -/
def barInfoV2Fields (barIndex : UInt32) (bar : BarInfo) (address : UInt64) : List UInt64 :=
  PciBars.barInfoFields barIndex bar ++ [bar.mappedResource.toUInt64, bar.length, address]

/-- The snapshot that the probe takes of a record. -/
def snapshotOf (out : List UInt64) : Probe.BarInfoSnapshot where
  valid := true
  fields := Probe.fill (fun _ => 0) out

/-- A query for a slot succeeds, with the record of that slot. -/
theorem runs_barInfo
    (hr : Runs (externalMethod platform c 4 (barInfoArguments (barNumber b))) t (reply, c')) :
    ∃ address, reply = .success
        (barInfoV2Fields (barNumber b).toUInt32 (c.fPciBarState.bars b) address) ∧
      ∀ i, PciBars.Names c.fPciBarState b i →
        address = (c.fPciBarState.resources i).physicalAddress := by
  have hadmitted : Admitted 4 (barInfoArguments (barNumber b)) 4 :=
    ⟨rfl, rfl, rfl, rfl, rfl⟩
  rw [externalMethod_of_admitted hadmitted] at hr
  obtain ⟨t₁, out, t₂, -, hinfo, hend⟩ := runs_bind.mp hr
  obtain ⟨-, he⟩ := runs_pure.mp hend
  obtain ⟨rfl, -⟩ := Prod.mk.inj he
  rcases runs_getBarInfoV2 hinfo with ⟨b', address, hb, rfl, haddress⟩ | ⟨hge, -, -⟩
  · have heq : b' = b := Fin.ext (hb.symm.trans (barNumber_toUInt32 b))
    subst heq
    refine ⟨address, rfl, ?_⟩
    intro i hi
    rcases haddress with ⟨hn, -, -⟩ | ⟨-, hread⟩
    · exact absurd hi (PciBars.not_names_of_invalid hn i)
    · rw [show (c.fPciBarState.bars b').mappedResource = UInt32.ofNat i.val from hi] at hread
      have hlt := i.isLt
      have hi' : (UInt32.ofNat i.val).toNat = i.val :=
        UInt32.toNat_ofNat_of_lt' (lt_trans hlt (by decide))
      rcases runs_resourcePhysicalAddress hread with ⟨j, hj, -, ha⟩ | ⟨hge, -⟩
      · rw [ha, show j = i from Fin.ext (hj.symm.trans hi')]
      · omega
  · have hlt := b.isLt
    have hb := barNumber_toUInt32 b
    change kMaxBars ≤ (barNumber b).toUInt32.toNat at hge
    omega

/-! ## The test of the probe -/

theorem toUInt64_bne_zero (flag : Bool) : (flag.toUInt64 != 0) = flag := by
  cases flag <;> rfl

/-- The sentinel stays a sentinel when it is widened. -/
theorem widened_ne_invalid_iff (index : UInt32) :
    index.toUInt64 ≠ Probe.kInvalidResourceIndex ↔ index ≠ kInvalidResourceIndex := by
  rw [show Probe.kInvalidResourceIndex = kInvalidResourceIndex.toUInt64 from rfl]
  exact not_congr UInt32.toUInt64_inj

theorem widened_resourceIndex (i : Fin kMaxResources) :
    (UInt32.ofNat i.val).toUInt64 = UInt64.ofNat i.val := by
  revert i
  decide

section Snapshot

variable {barIndex : UInt32} {bar : BarInfo} {address : UInt64}

/-- A record tells the probe whether its slot is eligible. -/
theorem snapshot_eligible :
    ((snapshotOf (barInfoV2Fields barIndex bar address)).present &&
      (snapshotOf (barInfoV2Fields barIndex bar address)).isMemory &&
      !(snapshotOf (barInfoV2Fields barIndex bar address)).isContinuation) = bar.eligible := by
  show ((bar.present.toUInt64 != 0) && (bar.isMemory.toUInt64 != 0) &&
    !(bar.isContinuation.toUInt64 != 0)) = bar.eligible
  rw [toUInt64_bne_zero, toUInt64_bne_zero, toUInt64_bne_zero]
  rfl

theorem snapshot_mapped_isSome_iff :
    (snapshotOf (barInfoV2Fields barIndex bar address)).mapped.isSome = true ↔
      bar.mappedResource ≠ kInvalidResourceIndex ∧ bar.length ≠ 0 := by
  rw [← widened_ne_invalid_iff]
  show (if bar.mappedResource.toUInt64 != Probe.kInvalidResourceIndex && bar.length != 0 then
    some _ else none).isSome = true ↔ _
  split
  · next h => simpa using h
  · next h => simpa using h

/-- The probe's test of a record, in terms of the slot that was exported. -/
theorem candidate_isSome_iff :
    (snapshotOf (barInfoV2Fields barIndex bar address)).candidate.isSome = true ↔
      bar.eligible = true ∧ bar.mappedResource ≠ kInvalidResourceIndex ∧ bar.length ≠ 0 := by
  unfold Probe.BarInfoSnapshot.candidate
  rw [snapshot_eligible]
  cases bar.eligible with
  | false => simp
  | true =>
    rw [if_pos rfl, snapshot_mapped_isSome_iff]
    simp

end Snapshot

/-! ## Candidates and windows -/

/-- A map as IOKit hands it out: it has an address, and room for a register. -/
def IOMemoryMap.Usable (map : IOMemoryMap) : Prop :=
  map.virtualAddress ≠ 0 ∧ 4 ≤ map.length.toNat

instance (map : IOMemoryMap) : Decidable map.Usable := inferInstanceAs (Decidable (_ ∧ _))

/-- Every map that was obtained in `t` is usable. -/
def MapsUsable (t : List DeviceEvent) : Prop := ∀ map ∈ t.filterMap obtained, map.Usable

instance (t : List DeviceEvent) : Decidable (MapsUsable t) :=
  inferInstanceAs (Decidable (∀ map ∈ t.filterMap obtained, map.Usable))

theorem MapsUsable.of_live {map : IOMemoryMap} (h : MapsUsable t) (hlive : Live t map) :
    map.Usable := by
  obtain ⟨u, e, v, rfl, hobtained, -⟩ := hlive
  exact h map (List.mem_filterMap.mpr ⟨e, by simp, hobtained⟩)

theorem window_barNumber {state : PciBarState} {w : Window MmioPtr} :
    PciBars.window state (barNumber b).toUInt32 = some w ↔
      (state.bars b).eligible = true ∧ (state.bars b).mappedResource ≠ kInvalidResourceIndex ∧
      (state.bars b).mappedPtr.address ≠ 0 ∧
      w = { base := (state.bars b).mappedPtr, length := (state.bars b).length.toNat } := by
  rw [PciBars.window_eq_some]
  constructor
  · rintro ⟨b', hb, h⟩
    rw [show b = b' from Fin.ext ((barNumber_toUInt32 b).symm.trans hb)]
    exact h
  · exact fun h => ⟨b, barNumber_toUInt32 b, h⟩

/--
In a consistent table whose maps are usable, the record of a slot is a candidate exactly if the
slot opens a window; the window is the whole map, and has room for a register.
-/
theorem candidate_iff_window {state : PciBarState} {barIndex : UInt32} {address : UInt64}
    (hc : PciBars.Consistent state)
    (husable : ∀ i map, (state.resources i).map = some map → map.Usable) :
    (snapshotOf (barInfoV2Fields barIndex (state.bars b) address)).candidate.isSome = true ↔
      ∃ w, PciBars.window state (barNumber b).toUInt32 = some w ∧
        w.length = (state.bars b).length.toNat ∧ 4 ≤ w.length := by
  rw [candidate_isSome_iff]
  constructor
  · rintro ⟨hel, hres, -⟩
    rcases hc.slot b with hn | ⟨i, map, -, hm, hptr, hlen, -⟩
    · exact absurd hn hres
    · obtain ⟨haddress, hroom⟩ := husable i map hm
      refine ⟨_, window_barNumber.mpr ⟨hel, hres, ?_, rfl⟩, rfl, ?_⟩
      · rw [hptr]
        exact haddress
      · show 4 ≤ (state.bars b).length.toNat
        rw [hlen]
        exact hroom
  · rintro ⟨w, hw, hlen, hroom⟩
    obtain ⟨hel, hres, -, -⟩ := window_barNumber.mp hw
    refine ⟨hel, hres, ?_⟩
    intro hz
    rw [hlen, hz] at hroom
    exact absurd hroom (by decide)

/-! ## Reads -/

/-- A register read of a slot: one load where the slot's window grants it, or a rejection. -/
theorem runs_read {offset : UInt32}
    (hr : Runs (externalMethod platform c 2 (readArguments (barNumber b) offset.toUInt64)) t
      (reply, c')) :
    (∃ w, ∃ raw : UInt32, PciBars.Access c.fPciBarState (barNumber b).toUInt32 offset w ∧
      t = [⟨.load w.base offset, raw⟩] ∧ reply.ret = kIOReturnSuccess) ∨
    ((¬ ∃ w, PciBars.Access c.fPciBarState (barNumber b).toUInt32 offset w) ∧
      reply.ret ≠ kIOReturnSuccess) := by
  have hadmitted : Admitted 2 (readArguments (barNumber b) offset.toUInt64) 2 :=
    ⟨rfl, rfl, rfl, rfl, rfl⟩
  have hoffset : (readArguments (barNumber b) offset.toUInt64).offset = offset :=
    UInt32.toUInt32_toUInt64 offset
  rw [externalMethod_of_admitted hadmitted] at hr
  have hcases := runs_sReadReg32FromBar.mp hr
  rw [hoffset] at hcases
  rcases hcases with ⟨w, raw, hw, ht, he⟩ | ⟨hn, -, he⟩
  · obtain ⟨rfl, -⟩ := Prod.mk.inj he
    exact Or.inl ⟨w, raw, hw, ht, rfl⟩
  · obtain ⟨rfl, -⟩ := Prod.mk.inj he
    exact Or.inr ⟨hn, badArgument_ne_success⟩

/-- The kext reads the register at `offset` of slot `b`, whatever the device answers. -/
def Readable (platform : Platform) (c : Controller) (b : Fin kMaxBars) (offset : UInt32) : Prop :=
  ∀ t reply c', Runs (externalMethod platform c 2 (readArguments (barNumber b) offset.toUInt64)) t
    (reply, c') → reply.ret = kIOReturnSuccess

/-- Whether a read succeeds does not depend on the device. -/
theorem readable_iff {offset : UInt32} : Readable platform c b offset ↔
    ∃ w, PciBars.Access c.fPciBarState (barNumber b).toUInt32 offset w := by
  constructor
  · intro h
    have hr := Program.runs_exec device8897.environment []
      (externalMethod platform c 2 (readArguments (barNumber b) offset.toUInt64))
    rcases runs_read hr with ⟨w, -, hw, -⟩ | ⟨-, hret⟩
    · exact ⟨w, hw⟩
    · exact absurd (h _ _ _ hr) hret
  · intro hw t reply c' hr
    rcases runs_read hr with ⟨-, -, -, -, hret⟩ | ⟨hn, -⟩
    · exact hret
    · exact absurd hw hn

/-! ## Agreement -/

/--
In every reachable state, the record of a slot is a candidate exactly if some register of the slot
can be read; the registers that can are then the aligned ones that end within the reported length;
and a read that succeeds loads from the map of the reported resource and physical address.
-/
theorem candidates_agree (h : Run platform boot calls s) (husable : MapsUsable (traceOf calls))
    (hinfo : Runs (externalMethod platform s.controller 4 (barInfoArguments (barNumber b))) t
      (reply, c')) :
    let snapshot := snapshotOf reply.scalarOutput
    reply.ret = kIOReturnSuccess ∧ reply.scalarOutput.length = Probe.kBarInfoV2FieldCount ∧
    (snapshot.candidate.isSome = true ↔ ∃ offset, Readable platform s.controller b offset) ∧
    ∀ offset u reply' c'', Runs (externalMethod platform s.controller 2
        (readArguments (barNumber b) offset.toUInt64)) u (reply', c'') →
      (reply'.ret = kIOReturnSuccess ↔ snapshot.candidate.isSome = true ∧
        4 ∣ offset.toNat ∧ offset.toNat + 4 ≤ snapshot.length.toNat) ∧
      (reply'.ret = kIOReturnSuccess → ∃ (i : Fin kMaxResources) (map : IOMemoryMap) (raw : UInt32),
        u = [⟨.load map.pointer offset, raw⟩] ∧
        (s.controller.fPciBarState.resources i).map = some map ∧ Live (traceOf calls) map ∧
        snapshot.mappedResource = UInt64.ofNat i.val ∧
        snapshot.physicalAddress = map.physicalAddress) := by
  intro snapshot
  obtain ⟨hc, hlive⟩ := consistent_of_run h
  have husable' : ∀ i map, (s.controller.fPciBarState.resources i).map = some map → map.Usable :=
    fun i map hm => husable.of_live (hlive i map hm)
  obtain ⟨address, rfl, haddress⟩ := runs_barInfo hinfo
  have hcandidate : snapshot.candidate.isSome = true ↔
      ∃ w, PciBars.window s.controller.fPciBarState (barNumber b).toUInt32 = some w ∧
        w.length = snapshot.length.toNat ∧ 4 ≤ w.length := candidate_iff_window hc husable'
  -- a window of the slot is as long as the record says
  have hlength : ∀ w, PciBars.window s.controller.fPciBarState (barNumber b).toUInt32 = some w →
      w.length = snapshot.length.toNat := by
    intro w hw
    obtain ⟨-, -, -, rfl⟩ := window_barNumber.mp hw
    rfl
  have haccess : ∀ offset, (∃ w, PciBars.Access s.controller.fPciBarState (barNumber b).toUInt32
      offset w) ↔ snapshot.candidate.isSome = true ∧
        4 ∣ offset.toNat ∧ offset.toNat + 4 ≤ snapshot.length.toNat := by
    intro offset
    rw [hcandidate]
    constructor
    · rintro ⟨w, hw, halign, hend⟩
      have hw' := hlength w hw
      exact ⟨⟨w, hw, hw', by omega⟩, halign, by omega⟩
    · rintro ⟨⟨w, hw, hw', -⟩, halign, hend⟩
      exact ⟨w, hw, halign, by omega⟩
  refine ⟨rfl, rfl, ?_, ?_⟩
  · constructor
    · intro hcand
      obtain ⟨w, hw, hw', hroom⟩ := hcandidate.mp hcand
      exact ⟨0, readable_iff.mpr ⟨w, hw, Nat.dvd_zero 4, by simpa using hroom⟩⟩
    · rintro ⟨offset, hread⟩
      exact ((haccess offset).mp (readable_iff.mp hread)).1
  · intro offset u reply' c'' hr
    rw [← haccess offset]
    rcases runs_read hr with ⟨w, raw, hw, rfl, hret⟩ | ⟨hn, hret⟩
    · refine ⟨⟨fun _ => ⟨w, hw⟩, fun _ => hret⟩, fun _ => ?_⟩
      obtain ⟨-, hres, -, rfl⟩ := window_barNumber.mp hw.1
      -- the pointer that was loaded through is the one of the resource that the slot names
      rcases hc.slot b with hinvalid | ⟨i, map, hi, hm, hptr, -, -⟩
      · exact absurd hinvalid hres
      · refine ⟨i, map, raw, by rw [hptr], hm, hlive i map hm, ?_, ?_⟩
        · show (s.controller.fPciBarState.bars b).mappedResource.toUInt64 = _
          rw [show (s.controller.fPciBarState.bars b).mappedResource = UInt32.ofNat i.val from hi]
          exact widened_resourceIndex i
        · show address = _
          rw [haddress i hi]
          exact (hc.resource i map hm).2.2.2
    · exact ⟨⟨fun hs => absurd hs hret, fun hw => absurd hw hn⟩, fun hs => absurd hs hret⟩

theorem candidates_agree_started :
    let r := play littleEndianPlatform device8897.environment [] boot [.start]
    let info := (externalMethod littleEndianPlatform r.2.controller 4
      (barInfoArguments (barNumber 0))).exec device8897.environment []
    (snapshotOf info.2.1.scalarOutput).candidate.isSome = true ∧
      ∃ offset, Readable littleEndianPlatform r.2.controller 0 offset := by
  have hagree := candidates_agree (run_play [] boot [.start]) (by decide +kernel)
    (Program.runs_exec device8897.environment [] (externalMethod littleEndianPlatform
      (play littleEndianPlatform device8897.environment [] boot [.start]).2.controller 4
      (barInfoArguments (barNumber 0))))
  exact ⟨by decide +kernel, hagree.2.2.1.mp (by decide +kernel)⟩

end MarvellW8897
