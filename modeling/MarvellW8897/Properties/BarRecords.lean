import MarvellW8897.Properties.Decoding
import MarvellW8897.Properties.UserClient

/-!
# The exported records of the BARs

* `exported_pairs` — in the records, 64-bit slots and continuation slots come in pairs, except that
  slot 5 can be flagged without an upper half.
* `exported_unpaired` — a device for which it is.
-/

namespace MarvellW8897

open Effect

namespace PciBars

variable {d : Fin kMaxBars → UInt32} {state before : PciBarState} {b next : Fin kMaxBars}
  {t : List DeviceEvent} {fields : List UInt64}

/-! ## Records -/

/-- A record of slot `b`, of either kind. -/
def Exports (state : PciBarState) (b : Fin kMaxBars) (fields : List UInt64) : Prop :=
  getBarInfoLegacy state (UInt32.ofNat b.val) = some fields ∨
    ∃ u, Runs (getBarInfoV2 state (UInt32.ofNat b.val)) u (some fields)

/-! The fields of a record, by their numbers in both kinds. -/

def rawLowOf (fields : List UInt64) : UInt64 := fields.getD 1 0
def rawHighOf (fields : List UInt64) : UInt64 := fields.getD 2 0
def configValueOf (fields : List UInt64) : UInt64 := fields.getD 3 0
def is64BitOf (fields : List UInt64) : UInt64 := fields.getD 6 0
def isContinuationOf (fields : List UInt64) : UInt64 := fields.getD 7 0

theorem toNat_ofNat_bar (b : Fin kMaxBars) : (UInt32.ofNat b.val).toNat = b.val :=
  UInt32.toNat_ofNat_of_lt' (Nat.lt_trans b.isLt (by decide))

theorem getBarInfoLegacy_bar (state : PciBarState) (b : Fin kMaxBars) :
    getBarInfoLegacy state (UInt32.ofNat b.val) =
      some (barInfoFields (UInt32.ofNat b.val) (state.bars b)) := by
  have hlt : (UInt32.ofNat b.val).toNat < kMaxBars := by
    rw [toNat_ofNat_bar]
    exact b.isLt
  have he : (⟨(UInt32.ofNat b.val).toNat, hlt⟩ : Fin kMaxBars) = b := Fin.ext (toNat_ofNat_bar b)
  rw [getBarInfoLegacy, dif_pos hlt, he]

/-- Both kinds of records start with the fields of the slot. -/
theorem Exports.fields_eq (h : Exports state b fields) :
    ∃ rest, fields = barInfoFields (UInt32.ofNat b.val) (state.bars b) ++ rest := by
  rcases h with h | ⟨u, h⟩
  · rw [getBarInfoLegacy_bar] at h
    exact ⟨[], by rw [← Option.some.inj h, List.append_nil]⟩
  · rcases runs_getBarInfoV2 h with ⟨b', address, hb', hout, -⟩ | ⟨-, -, hout⟩
    · obtain rfl : b = b' := Fin.ext ((toNat_ofNat_bar b).symm.trans hb')
      exact ⟨_, Option.some.inj hout⟩
    · simp at hout

/-- A record holds what the layout says about its slot. -/
structure Describes (fields : List UInt64) (slot : Slot) : Prop where
  rawLow : rawLowOf fields = slot.low.toUInt64
  rawHigh : rawHighOf fields = slot.high.toUInt64
  configValue : (configValueOf fields).toNat = slot.configValue
  is64Bit : is64BitOf fields = slot.is64Bit.toUInt64
  isContinuation : isContinuationOf fields = slot.isUpper.toUInt64

theorem Exports.describes {slot : Slot} (h : Exports state b fields)
    (hslot : Decodes (state.bars b) slot) : Describes fields slot := by
  obtain ⟨rest, rfl⟩ := h.fields_eq
  exact ⟨congrArg UInt32.toUInt64 hslot.rawLow, congrArg UInt32.toUInt64 hslot.rawHigh,
    hslot.configValue, congrArg Bool.toUInt64 hslot.is64Bit,
    congrArg Bool.toUInt64 hslot.isContinuation⟩

/-- The slot that the layout has at `b`. -/
theorem exists_slot (h : Runs (mapDeviceBars true before) t (true, state))
    (ht : ∀ e ∈ t, readsDwords d e = true) (b : Fin kMaxBars) :
    ∃ slot, (scan (List.ofFn d))[b.val]? = some slot ∧ slot.low = d b ∧
      Decodes (state.bars b) slot := by
  have hslots := mapDeviceBars_decodes h ht
  have hlength : (scan (List.ofFn d)).length = kMaxBars := by
    rw [← hslots.length_eq, List.length_map, List.length_finRange]
  have hlt : b.val < (scan (List.ofFn d)).length := by
    rw [hlength]
    exact b.isLt
  refine ⟨(scan (List.ofFn d))[b.val], List.getElem?_eq_getElem hlt, ?_, ?_⟩
  · have hlow : ((scan (List.ofFn d)).map Slot.low)[b.val]? = (List.ofFn d)[b.val]? := by
      rw [scan_low]
    rw [List.getElem?_map, List.getElem?_eq_getElem hlt, List.getElem?_ofFn, dif_pos b.isLt] at hlow
    exact Option.some.inj hlow
  · have hget := (List.forall₂_iff_get.mp hslots).2 b.val (by simp) hlt
    simpa using hget

theorem toUInt64_eq_one {x : Bool} : x.toUInt64 = 1 ↔ x = true := by cases x <;> decide

theorem toUInt64_eq_zero {x : Bool} : x.toUInt64 = 0 ↔ x = false := by cases x <;> decide

/-! ## Pairs -/

variable {fields' : List UInt64} {slot slot' : Slot}

/-- A slot without an upper half has its own dword for a value. -/
theorem Describes.single (h : Describes fields slot) (hpair : slot.isPair = false) :
    rawHighOf fields = 0 ∧ configValueOf fields = rawLowOf fields := by
  have hlow := h.rawLow
  have hhigh := h.rawHigh
  have hvalue := h.configValue
  have hword : ∀ low : UInt32, (configValueOf fields).toNat = low.toNat →
      configValueOf fields = low.toUInt64 := by
    intro low he
    refine UInt64.toNat_inj.mp ?_
    rw [he, UInt32.toNat_toUInt64]
  cases slot with
  | io low => exact ⟨hhigh, (hword low hvalue).trans hlow.symm⟩
  | memory low => exact ⟨hhigh, (hword low hvalue).trans hlow.symm⟩
  | upper low => exact ⟨hhigh, (hword low hvalue).trans hlow.symm⟩
  | pair low high => simp [Slot.isPair] at hpair

/-- A slot is flagged as 64-bit if it is a pair, or the last one and asks for 64 bits in vain. -/
theorem is64Bit_cases (h : (scan (List.ofFn d))[b.val]? = some slot) (hwide : slot.is64Bit = true) :
    slot.isPair = true ∨ (b.val + 1 = kMaxBars ∧ slot = .memory slot.low) := by
  cases slot with
  | io low => simp [Slot.is64Bit] at hwide
  | upper low => simp [Slot.is64Bit] at hwide
  | pair low high => exact Or.inl rfl
  | memory low =>
    have hlast := scan_wide h hwide
    rw [List.length_ofFn] at hlast
    exact Or.inr ⟨hlast, rfl⟩

theorem is64Bit_of_isPair (h : slot.isPair = true) : slot.is64Bit = true := by
  cases slot with
  | pair low high => rfl
  | io low | memory low | upper low => simp [Slot.isPair] at h

/-- The slot behind a pair is its upper half. -/
theorem upper_of_isPair (hnext : next.val = b.val + 1)
    (h : (scan (List.ofFn d))[b.val]? = some slot)
    (h' : (scan (List.ofFn d))[next.val]? = some slot') (hpair : slot.isPair = true) :
    slot' = .upper slot.high := by
  rw [hnext] at h'
  cases slot with
  | pair low high =>
    rw [scan_pair h] at h'
    exact (Option.some.inj h').symm
  | io low | memory low | upper low => simp [Slot.isPair] at hpair

/-- Side by side in the table: the one is a pair exactly if the other is an upper half. -/
theorem isPair_iff (hnext : next.val = b.val + 1)
    (h : (scan (List.ofFn d))[b.val]? = some slot)
    (h' : (scan (List.ofFn d))[next.val]? = some slot') :
    slot.isPair = true ↔ slot'.isUpper = true := by
  constructor
  · intro hpair
    rw [upper_of_isPair hnext h h' hpair]
    rfl
  · intro hupper
    rw [hnext] at h'
    cases slot' with
    | upper high =>
      obtain ⟨a, low, ha, hpair⟩ := scan_upper h'
      obtain rfl : b.val = a := Nat.succ.inj ha
      rw [h] at hpair
      rw [Option.some.inj hpair]
      rfl
    | io low | memory low | pair low high => simp [Slot.isUpper] at hupper

/-- In front of another slot, the flag says whether the slot is a pair. -/
theorem is64Bit_iff (hnext : next.val = b.val + 1)
    (h : (scan (List.ofFn d))[b.val]? = some slot) :
    slot.is64Bit = true ↔ slot.isPair = true := by
  refine ⟨fun hwide => (is64Bit_cases h hwide).resolve_right ?_, is64Bit_of_isPair⟩
  rintro ⟨hlast, -⟩
  have hlt := next.isLt
  omega

/-- No upper half follows the last slot. -/
theorem isPair_last (h : (scan (List.ofFn d))[b.val]? = some slot) (hlast : b.val + 1 = kMaxBars) :
    slot.isPair = false := by
  cases slot with
  | pair low high =>
    have hlt := (List.getElem?_eq_some_iff.mp (scan_pair h)).1
    have hlength := congrArg List.length (scan_low (List.ofFn d))
    rw [List.length_map, List.length_ofFn] at hlength
    omega
  | io low | memory low | upper low => rfl

/-- In the last slot, the flag says what the bits of the dword ask for. -/
theorem is64Bit_last (h : (scan (List.ofFn d))[b.val]? = some slot) (hlast : b.val + 1 = kMaxBars) :
    slot.is64Bit = true ↔
      slot.isUpper = false ∧ isIo slot.low = false ∧ isWide slot.low = true := by
  have hpair := isPair_last h hlast
  have hmemory := scan_isMemory (List.mem_of_getElem? h)
  cases slot with
  | pair low high => simp [Slot.isPair] at hpair
  | upper low => simp [Slot.is64Bit, Slot.isUpper]
  | io low =>
    have hio : isIo low = true := by simpa [Slot.isMemory, Slot.low] using hmemory rfl
    simp [Slot.is64Bit, Slot.low, hio]
  | memory low =>
    have hio : isIo low = false := by simpa [Slot.isMemory, Slot.low] using hmemory rfl
    simp [Slot.is64Bit, Slot.isUpper, Slot.low, hio]

/-- The record of a pair holds both dwords. -/
theorem Describes.pair (h : Describes fields slot) (hpair : slot.isPair = true) :
    rawHighOf fields = slot.high.toUInt64 ∧
      (configValueOf fields).toNat =
        (rawHighOf fields).toNat * 2 ^ 32 + (rawLowOf fields).toNat := by
  refine ⟨h.rawHigh, ?_⟩
  rw [h.configValue, h.rawHigh, h.rawLow, UInt32.toNat_toUInt64, UInt32.toNat_toUInt64]
  cases slot with
  | pair low high => exact Nat.add_comm _ _
  | io low | memory low | upper low => simp [Slot.isPair] at hpair

/--
In the records of a mapping that succeeds, a slot in front of another is flagged as 64-bit exactly
if that one is flagged as a continuation, and then holds both dwords. A slot that is not flagged
holds its own dword, slot 0 is never a continuation, and slot 5 is flagged exactly if it is no
continuation and its own bits ask for 64, which leaves it with its own dword.
-/
theorem exported_pairs (h : Runs (mapDeviceBars true before) t (true, state))
    (ht : ∀ e ∈ t, readsDwords d e = true) {record : Fin kMaxBars → List UInt64}
    (hrecord : ∀ b, Exports state b (record b)) :
    (∀ b next : Fin kMaxBars, next.val = b.val + 1 →
      (is64BitOf (record b) = 1 ↔ isContinuationOf (record next) = 1) ∧
      (is64BitOf (record b) = 1 → rawHighOf (record b) = rawLowOf (record next) ∧
        (configValueOf (record b)).toNat =
          (rawHighOf (record b)).toNat * 2 ^ 32 + (rawLowOf (record b)).toNat)) ∧
    (∀ b, is64BitOf (record b) = 0 →
      rawHighOf (record b) = 0 ∧ configValueOf (record b) = rawLowOf (record b)) ∧
    isContinuationOf (record 0) = 0 ∧
    (is64BitOf (record 5) = 1 ↔
      isContinuationOf (record 5) = 0 ∧ isIo (d 5) = false ∧ isWide (d 5) = true) ∧
    (is64BitOf (record 5) = 1 →
      rawHighOf (record 5) = 0 ∧ configValueOf (record 5) = rawLowOf (record 5)) := by
  have hslot : ∀ b, ∃ slot, (scan (List.ofFn d))[b.val]? = some slot ∧ slot.low = d b ∧
      Describes (record b) slot := by
    intro b
    obtain ⟨slot, hget, hlow, hdecodes⟩ := exists_slot h ht b
    exact ⟨slot, hget, hlow, (hrecord b).describes hdecodes⟩
  refine ⟨?_, ?_, ?_, ?_, ?_⟩
  · intro b next hnext
    obtain ⟨slot, hget, -, hrec⟩ := hslot b
    obtain ⟨slot', hget', -, hrec'⟩ := hslot next
    have hflag : is64BitOf (record b) = 1 ↔ slot.isPair = true := by
      rw [hrec.is64Bit, toUInt64_eq_one, is64Bit_iff hnext hget]
    refine ⟨?_, ?_⟩
    · rw [hflag, hrec'.isContinuation, toUInt64_eq_one, isPair_iff hnext hget hget']
    · intro hwide
      have hpair := hflag.mp hwide
      obtain ⟨hhigh, hvalue⟩ := hrec.pair hpair
      refine ⟨?_, hvalue⟩
      rw [hhigh, hrec'.rawLow, upper_of_isPair hnext hget hget' hpair]
      rfl
  · intro b hflag
    obtain ⟨slot, -, -, hrec⟩ := hslot b
    rw [hrec.is64Bit, toUInt64_eq_zero] at hflag
    refine hrec.single ?_
    cases hpair : slot.isPair with
    | false => rfl
    | true => simp [is64Bit_of_isPair hpair] at hflag
  · obtain ⟨slot, hget, -, hrec⟩ := hslot 0
    rw [hrec.isContinuation, toUInt64_eq_zero]
    cases slot with
    | upper high =>
      obtain ⟨a, low, ha, -⟩ := scan_upper hget
      simp at ha
    | io low | memory low | pair low high => rfl
  · obtain ⟨slot, hget, hlow, hrec⟩ := hslot 5
    rw [hrec.is64Bit, hrec.isContinuation, toUInt64_eq_one, toUInt64_eq_zero, ← hlow]
    exact is64Bit_last hget rfl
  · intro _
    obtain ⟨slot, hget, -, hrec⟩ := hslot 5
    exact hrec.single (isPair_last hget rfl)

/-- The records that `getBarInfoLegacy` exports for a table. -/
def legacyRecords (state : PciBarState) (b : Fin kMaxBars) : List UInt64 :=
  barInfoFields (UInt32.ofNat b.val) (state.bars b)

theorem exports_legacyRecords (state : PciBarState) (b : Fin kMaxBars) :
    Exports state b (legacyRecords state b) :=
  Or.inl (getBarInfoLegacy_bar state b)

/-- BAR 2 of the 88W8897 and its upper half. -/
theorem exported_pairs_8897 :
    is64BitOf (legacyRecords table8897 2) = 1 ∧ isContinuationOf (legacyRecords table8897 3) = 1 ∧
      rawHighOf (legacyRecords table8897 2) = rawLowOf (legacyRecords table8897 3) := by
  have hpairs := (exported_pairs (d := fun b => device8897.bars.getD b.val 0) runs_table8897
    (by decide +kernel) (exports_legacyRecords table8897)).1 2 3 rfl
  have hflag : is64BitOf (legacyRecords table8897 2) = 1 := by decide +kernel
  exact ⟨hflag, hpairs.1.mp hflag, (hpairs.2 hflag).1⟩

/-- A device whose last BAR dword asks for 64 bits. -/
def deviceLastWide : Device where
  vendorId := kVendorIdMarvell88W8897
  deviceId := kDeviceIdMarvell88W8897
  bars := [0xF0000000, 0, 0, 0, 0, 0xF0100004]
  memory := [some { handle := 1, virtualAddress := 0x1000000, length := 0x10000
                    physicalAddress := 0xF0000000 }]

def tableLastWide : PciBarState :=
  ((mapDeviceBars true {}).exec deviceLastWide.environment []).2.2

theorem runs_tableLastWide : Runs (mapDeviceBars true {})
    ((mapDeviceBars true {}).exec deviceLastWide.environment []).1 (true, tableLastWide) :=
  runs_mapDeviceBars_exec (by decide +kernel)

/-- Its slot 5 is flagged as 64-bit, and no slot follows. -/
theorem exported_unpaired :
    ¬ ∀ (d : Fin kMaxBars → UInt32) before t state,
      Runs (mapDeviceBars true before) t (true, state) →
      (∀ e ∈ t, readsDwords d e = true) →
      ∀ record : Fin kMaxBars → List UInt64, (∀ b, Exports state b (record b)) →
        ∀ b, is64BitOf (record b) = 1 ↔
          ∃ next : Fin kMaxBars, next.val = b.val + 1 ∧ isContinuationOf (record next) = 1 := by
  intro h
  have hflag : is64BitOf (legacyRecords tableLastWide 5) = 1 := by decide +kernel
  obtain ⟨next, hnext, -⟩ := (h (fun b => deviceLastWide.bars.getD b.val 0) {} _ tableLastWide
    runs_tableLastWide (by decide +kernel) _ (exports_legacyRecords tableLastWide) 5).mp hflag
  have hlt := next.isLt
  have hlast : next.val = kMaxBars := hnext
  omega

end PciBars

end MarvellW8897
