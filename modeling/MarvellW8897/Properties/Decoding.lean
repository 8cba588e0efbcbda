import Mathlib.Algebra.Group.Nat.Defs
import MarvellW8897.Properties.Association
import MarvellW8897.Spec.BarLayout
import MarvellW8897.Spec.Environment

/-!
# The decode loop reads the layout of the BAR dwords

* `decodes_decodeBar` — one turn of the loop decodes one slot and marks the next.
* `decodes_decodeBars` — the loop agrees with the scan from the left.
* `mapDeviceBars_decodes` — so do the slots of a mapping that succeeds.
-/

namespace MarvellW8897

open Effect

/-! ## Masks -/

/-- Clearing the low `k` bits of a number rounds it down to a multiple of `2 ^ k`. -/
theorem and_highMask {n k m : Nat} (h : n < 2 ^ (k + m)) :
    n &&& ((2 ^ m - 1) * 2 ^ k) = n / 2 ^ k * 2 ^ k := by
  apply Nat.eq_of_testBit_eq
  intro i
  rw [Nat.testBit_and, Nat.testBit_mul_two_pow, Nat.testBit_mul_two_pow,
    Nat.testBit_two_pow_sub_one, Nat.testBit_div_two_pow]
  by_cases hi : k ≤ i
  · rw [Nat.sub_add_cancel hi]
    by_cases hm : i - k < m
    · simp [hi, hm]
    · have hpow : 2 ^ (k + m) ≤ 2 ^ i := Nat.pow_le_pow_right (by omega) (by omega)
      rw [Nat.testBit_lt_two_pow (Nat.lt_of_lt_of_le h hpow)]
      simp
  · simp [hi]

theorem and_bit0 (dword : UInt32) : ((dword &&& 0x1) == 0) = !isIo dword := by
  have h : (dword &&& 0x1).toNat = dword.toNat % 2 := by
    rw [UInt32.toNat_and]
    exact Nat.and_two_pow_sub_one_eq_mod _ 1
  rw [Bool.eq_iff_iff, beq_iff_eq, ← UInt32.toNat_inj, h, isIo]
  simp

theorem and_bits12 (dword : UInt32) : ((dword &&& 0x6) == 0x4) = isWide dword := by
  have hlow : dword.toNat &&& 6 = dword.toNat % 8 &&& 6 := by
    rw [← Nat.and_two_pow_sub_one_eq_mod _ 3, Nat.and_assoc]
    rfl
  have hsmall : ∀ r < 8, (r &&& 6 = 4) ↔ r / 2 % 4 = 2 := by decide
  rw [Bool.eq_iff_iff, beq_iff_eq, ← UInt32.toNat_inj, UInt32.toNat_and, isWide, beq_iff_eq]
  change dword.toNat &&& 6 = 4 ↔ _
  rw [hlow, hsmall _ (Nat.mod_lt _ (by decide))]
  omega

theorem and_ioMask (dword : UInt32) : (dword &&& 0xFFFFFFFC).toNat = dword.toNat / 4 * 4 := by
  rw [UInt32.toNat_and]
  exact and_highMask (k := 2) (m := 30) dword.toNat_lt

theorem baseOf_toNat (x : UInt64) : (PciBars.baseOf x).toNat = x.toNat / 16 * 16 := by
  rw [PciBars.baseOf, UInt64.toNat_and]
  exact and_highMask (k := 4) (m := 60) x.toNat_lt

theorem pairValue_toNat (low high : UInt32) :
    ((high.toUInt64 <<< 32) ||| low.toUInt64).toNat = low.toNat + high.toNat * 4294967296 := by
  have hlow := low.toNat_lt
  have hhigh := high.toNat_lt
  rw [UInt64.toNat_or, UInt64.toNat_shiftLeft, UInt32.toNat_toUInt64, UInt32.toNat_toUInt64]
  change high.toNat <<< 32 % 2 ^ 64 ||| low.toNat = _
  rw [Nat.mod_eq_of_lt (by rw [Nat.shiftLeft_eq]; omega), ← Nat.shiftLeft_add_eq_or_of_lt hlow,
    Nat.shiftLeft_eq]
  omega

namespace PciBars

/-! ## One turn of the loop -/

/-- The record of a slot holds what the layout says about it. -/
structure Decodes (info : BarInfo) (slot : Slot) : Prop where
  rawLow : info.rawLow = slot.low
  rawHigh : info.rawHigh = slot.high
  configValue : info.configValue.toNat = slot.configValue
  isMemory : info.isMemory = slot.isMemory
  is64Bit : info.is64Bit = slot.is64Bit
  isContinuation : info.isContinuation = slot.isUpper
  present : info.present = slot.present

/-- Slot `b` reads `d b`, whenever it is read. -/
def readsDwords (d : Fin kMaxBars → UInt32) : DeviceEvent → Bool
  | ⟨.configRead32 offset, value⟩ =>
    decide (∀ b, offset = barRegOffset b → value = d b)
  | _ => true

/-- The dword that follows slot `b`. -/
def nextDword (d : Fin kMaxBars → UInt32) (b : Fin kMaxBars) : Option UInt32 :=
  if h : b.val + 1 < kMaxBars then some (d ⟨b.val + 1, h⟩) else none

theorem nextDword_of_val {d : Fin kMaxBars → UInt32} {b next : Fin kMaxBars}
    (h : next.val = b.val + 1) : nextDword d b = some (d next) := by
  have hlt : b.val + 1 < kMaxBars := by
    rw [← h]
    exact next.isLt
  have hnext : next = ⟨b.val + 1, hlt⟩ := Fin.ext h
  rw [nextDword, dif_pos hlt, hnext]

variable {d : Fin kMaxBars → UInt32} {state state' : PciBarState} {bar : Fin kMaxBars}
  {t : List DeviceEvent} {info : BarInfo} {slot : Slot}

theorem readsDwords_configRead32 {value : UInt32}
    (h : readsDwords d ⟨.configRead32 (barRegOffset bar), value⟩ = true) : value = d bar := by
  rw [readsDwords, decide_eq_true_iff] at h
  exact h bar rfl

theorem barRegOffset_next {next : Fin kMaxBars} (h : next.val = bar.val + 1) :
    barRegOffset bar + 4 = barRegOffset next := by
  revert next bar
  decide

theorem isMemory_decodeFlags (info : BarInfo) (lo : UInt32) :
    (decodeFlags info lo).isMemory = !isIo lo := and_bit0 lo

theorem is64Bit_decodeFlags (info : BarInfo) (lo : UInt32) :
    (decodeFlags info lo).is64Bit = (!isIo lo && isWide lo) := by
  rw [← and_bit0, ← and_bits12]
  rfl

/-- `withPresent` computes the `present` flag of the layout. -/
theorem Decodes.withPresent (hupper : slot.isUpper = false) (hlow : info.rawLow = slot.low)
    (hhigh : info.rawHigh = slot.high) (hvalue : info.configValue.toNat = slot.configValue)
    (hmemory : info.isMemory = slot.isMemory) (hwide : info.is64Bit = slot.is64Bit)
    (hcont : info.isContinuation = false) : Decodes (withPresent info) slot := by
  have hpresent : (PciBars.withPresent info).present = slot.present := by
    unfold PciBars.withPresent
    split
    · next hm =>
      rw [hmemory] at hm
      rw [Slot.present_of_isMemory hm, ← hvalue, ← baseOf_toNat, Bool.eq_iff_iff, bne_iff_ne,
        bne_iff_ne, Ne, ← UInt64.toNat_inj]
      rfl
    · next hm =>
      rw [hmemory, Bool.not_eq_true] at hm
      rw [Slot.present_of_not_isMemory hm hupper, ← hlow, ← and_ioMask, Bool.eq_iff_iff,
        bne_iff_ne, bne_iff_ne, Ne, ← UInt32.toNat_inj]
      rfl
  rw [hupper.symm] at hcont
  refine ⟨?_, ?_, ?_, ?_, ?_, ?_, hpresent⟩
  all_goals
    unfold PciBars.withPresent
    split <;> assumption

/-- One turn: the slot is decoded, the next is marked if it is an upper half, the rest stays. -/
theorem decodes_decodeBar (h : Runs (decodeBar state bar) t state')
    (ht : ∀ e ∈ t, readsDwords d e = true) :
    Decodes (state'.bars bar) (slotOf (state.bars bar).isContinuation (d bar) (nextDword d bar)) ∧
    (∀ next : Fin kMaxBars, next.val = bar.val + 1 → (state'.bars next).isContinuation =
      ((slotOf (state.bars bar).isContinuation (d bar) (nextDword d bar)).isPair ||
        (state.bars next).isContinuation)) ∧
    ∀ b, b ≠ bar → b.val ≠ bar.val + 1 → state'.bars b = state.bars b := by
  have hne : ∀ next : Fin kMaxBars, next.val = bar.val + 1 → next ≠ bar := by
    rintro next hnext rfl
    omega
  obtain ⟨lo, ⟨hcont, rfl, rfl⟩ | ⟨hcont, next, hi, hnext, hwide, rfl, rfl⟩ |
    ⟨hcont, hnarrow, rfl, rfl⟩⟩ := runs_decodeBar h
  · have hlo : lo = d bar := readsDwords_configRead32 (ht _ List.mem_cons_self)
    refine ⟨?_, ?_, ?_⟩
    · rw [hcont, setBar_bars_self, ← hlo]
      exact ⟨rfl, rfl, UInt32.toNat_toUInt64 _, rfl, rfl, hcont, rfl⟩
    · intro next hnext
      rw [setBar_bars_of_ne _ _ _ (hne next hnext), hcont]
      rfl
    · intro b hb _
      exact setBar_bars_of_ne _ _ _ hb
  · have hlo : lo = d bar := readsDwords_configRead32 (ht _ List.mem_cons_self)
    have hhi := ht _ (List.mem_cons_of_mem _ List.mem_cons_self)
    rw [barRegOffset_next hnext] at hhi
    replace hhi := readsDwords_configRead32 hhi
    rw [is64Bit_decodeFlags, Bool.and_eq_true, Bool.not_eq_true'] at hwide
    have hslot : slotOf (state.bars bar).isContinuation (d bar) (nextDword d bar) =
        .pair lo hi := by
      rw [hcont, nextDword_of_val hnext, ← hlo, ← hhi]
      exact slotOf_pair hwide.1 hwide.2
    rw [hslot]
    refine ⟨?_, ?_, ?_⟩
    · rw [setBar_bars_self]
      refine Decodes.withPresent rfl rfl rfl (pairValue_toNat lo hi) ?_ ?_ hcont
      · rw [isMemory_decodeFlags, hwide.1]
        rfl
      · rw [is64Bit_decodeFlags, hwide.1, hwide.2]
        rfl
    · intro next' hnext'
      obtain rfl : next' = next := Fin.ext (hnext'.trans hnext.symm)
      rw [setBar_bars_of_ne _ _ _ (hne next' hnext), setBar_bars_self]
      rfl
    · intro b hb hb'
      rw [setBar_bars_of_ne _ _ _ hb, setBar_bars_of_ne]
      rintro rfl
      exact hb' hnext
  · have hlo : lo = d bar := readsDwords_configRead32 (ht _ List.mem_cons_self)
    rw [is64Bit_decodeFlags, not_and_or, Bool.not_eq_true] at hnarrow
    have hslot : slotOf (state.bars bar).isContinuation (d bar) (nextDword d bar) =
        if isIo lo then .io lo else .memory lo := by
      rw [hcont, ← hlo]
      exact slotOf_single (hnarrow.imp_right fun hlast => dif_neg hlast)
    rw [hslot]
    refine ⟨?_, ?_, ?_⟩
    · rw [setBar_bars_self]
      have hmemory := isMemory_decodeFlags (state.bars bar) lo
      have hwide := is64Bit_decodeFlags (state.bars bar) lo
      cases hio : isIo lo with
      | true =>
        rw [hio] at hmemory hwide
        exact Decodes.withPresent rfl rfl rfl (UInt32.toNat_toUInt64 lo) hmemory hwide hcont
      | false =>
        rw [hio] at hmemory hwide
        exact Decodes.withPresent rfl rfl rfl (UInt32.toNat_toUInt64 lo) hmemory hwide hcont
    · intro next hnext
      rw [setBar_bars_of_ne _ _ _ (hne next hnext)]
      cases isIo lo <;> rfl
    · intro b hb _
      exact setBar_bars_of_ne _ _ _ hb

/-! ## The loop -/

/-- In the list of all indices, `b` is followed by `b + 1`. -/
theorem head?_of_finRange {n : Nat} {before rest : List (Fin n)} {b : Fin n}
    (h : List.finRange n = before ++ b :: rest) :
    rest.head? = if hlt : b.val + 1 < n then some ⟨b.val + 1, hlt⟩ else none := by
  have hb : (List.finRange n)[before.length]? = some b := by
    rw [h]
    simp
  have hhead : (List.finRange n)[before.length + 1]? = rest.head? := by
    rw [h, List.getElem?_append_right (by omega), List.head?_eq_getElem?]
    simp
  obtain ⟨hlt, rfl⟩ := List.getElem?_eq_some_iff.mp hb
  rw [← hhead]
  split
  · next hnext => simpa [List.getElem?_eq_some_iff] using hnext
  · next hlast => simpa using hlast

/-- Which indices come before `b`, next to it, and later. -/
theorem finRange_split {n : Nat} {before rest : List (Fin n)} {b : Fin n}
    (h : List.finRange n = before ++ b :: rest) :
    (∀ b' ∈ before, b'.val < b.val) ∧ (∀ b' ∈ rest.head?, b'.val = b.val + 1) ∧
      ∀ b' ∈ rest.tail, b.val + 1 < b'.val := by
  have hhead : ∀ b' ∈ rest.head?, b'.val = b.val + 1 := by
    intro b' hb'
    rw [head?_of_finRange h] at hb'
    split at hb'
    · rw [← Option.some.inj hb']
    · simp at hb'
  refine ⟨fun b' hb' => PciBars.lt_of_turn h hb', hhead, ?_⟩
  intro b' hb'
  cases rest with
  | nil => simp at hb'
  | cons c rest =>
    have hsplit : List.finRange n = (before ++ [b]) ++ c :: rest := by
      rw [h, List.append_assoc]
      rfl
    have hsorted := List.pairwise_lt_finRange n
    rw [hsplit, List.pairwise_append, List.pairwise_cons] at hsorted
    rw [← hhead c rfl]
    exact hsorted.2.1.1 b' hb'

theorem head?_dwords {before rest : List (Fin kMaxBars)} {b : Fin kMaxBars}
    (h : List.finRange kMaxBars = before ++ b :: rest) :
    (rest.map d).head? = nextDword d b := by
  rw [List.head?_map, head?_of_finRange h, nextDword]
  split <;> rfl

/--
The turns of the slots `todo`, the last of the table: only the first of them may be marked, and
every slot is decoded as the marked scan reads it.
-/
theorem decodes_foldlM {before todo : List (Fin kMaxBars)} {marked : Bool}
    (hl : List.finRange kMaxBars = before ++ todo)
    (hhead : ∀ b ∈ todo.head?, (state.bars b).isContinuation = marked)
    (htail : ∀ b ∈ todo.tail, (state.bars b).isContinuation = false)
    (h : Runs (todo.foldlM decodeBar state) t state')
    (ht : ∀ e ∈ t, readsDwords d e = true) :
    List.Forall₂ Decodes (todo.map state'.bars) (scanMarked marked (todo.map d)) ∧
      ∀ b ∈ before, state'.bars b = state.bars b := by
  induction todo generalizing before state t marked with
  | nil =>
    obtain ⟨rfl, rfl⟩ := runs_pure.mp h
    exact ⟨List.Forall₂.nil, fun _ _ => rfl⟩
  | cons bar rest ih =>
    rw [List.foldlM_cons] at h
    obtain ⟨t₁, state₁, t₂, rfl, hbar, hrest⟩ := runs_bind.mp h
    obtain ⟨hdec, hnext, hframe⟩ := decodes_decodeBar hbar
      (fun e he => ht e (List.mem_append_left t₂ he))
    obtain ⟨hbefore, hfirst, hlater⟩ := finRange_split hl
    rw [hhead bar rfl, ← head?_dwords hl] at hdec hnext
    have hlrest : List.finRange kMaxBars = (before ++ [bar]) ++ rest := by
      rw [hl, List.append_assoc]
      rfl
    -- the next slot is marked if this one is the lower half of a pair, and no other slot is
    have hhead₁ : ∀ b ∈ rest.head?, (state₁.bars b).isContinuation =
        (slotOf marked (d bar) (rest.map d).head?).isPair := by
      intro b hb
      rw [hnext b (hfirst b hb), htail b (List.mem_of_mem_head? hb), Bool.or_false]
    have htail₁ : ∀ b ∈ rest.tail, (state₁.bars b).isContinuation = false := by
      intro b hb
      have hgt := hlater b hb
      have hne : b ≠ bar := by
        rintro rfl
        omega
      rw [hframe b hne (by omega)]
      exact htail b (List.mem_of_mem_tail hb)
    obtain ⟨hslots, hkept⟩ := ih hlrest hhead₁ htail₁ hrest
      (fun e he => ht e (List.mem_append_right t₁ he))
    refine ⟨?_, ?_⟩
    · refine List.Forall₂.cons ?_ hslots
      rw [hkept bar (by simp)]
      exact hdec
    · intro b hb
      have hlt := hbefore b hb
      rw [hkept b (List.mem_append_left _ hb)]
      exact hframe b (Fin.ne_of_lt hlt) (by omega)

/-- From a fresh table, the loop decodes the slots that the scan reads. -/
theorem decodes_decodeBars (hfresh : ∀ b, (state.bars b).isContinuation = false)
    (h : Runs (decodeBars state) t state') (ht : ∀ e ∈ t, readsDwords d e = true) :
    List.Forall₂ Decodes ((List.finRange kMaxBars).map state'.bars) (scan (List.ofFn d)) := by
  rw [scan_eq, List.ofFn_eq_map]
  exact (decodes_foldlM (List.nil_append _).symm (fun b _ => hfresh b) (fun b _ => hfresh b) h
    ht).1

/-! ## mapDeviceBars -/

/-- Mapping and association keep what was decoded. -/
theorem Decodes.of_decodedPart {info' : BarInfo} (h : Decodes info slot)
    (he : decodedPart info' = decodedPart info) : Decodes info' slot := by
  have hlow := congrArg BarInfo.rawLow he
  have hhigh := congrArg BarInfo.rawHigh he
  have hvalue := congrArg BarInfo.configValue he
  have hmemory := congrArg BarInfo.isMemory he
  have hwide := congrArg BarInfo.is64Bit he
  have hcont := congrArg BarInfo.isContinuation he
  have hpresent := congrArg BarInfo.present he
  exact ⟨hlow.trans h.rawLow, hhigh.trans h.rawHigh, (congrArg UInt64.toNat hvalue).trans
    h.configValue, hmemory.trans h.isMemory, hwide.trans h.is64Bit, hcont.trans h.isContinuation,
    hpresent.trans h.present⟩

/-- The slots before the association are those of the layout. -/
theorem decodes_gather {before table : PciBarState} {u : List DeviceEvent}
    (h : Runs (gather before) u table) (hu : ∀ e ∈ u, readsDwords d e = true) :
    List.Forall₂ (fun b slot => Decodes (table.bars b) slot) (List.finRange kMaxBars)
      (scan (List.ofFn d)) := by
  obtain ⟨tc, tm, count, decoded, any, rfl, hdec, hmap⟩ := runs_gather h
  have hslots := decodes_decodeBars (fun _ => rfl) hdec (fun e he => hu e (by simp [he]))
  have hfresh : ∀ i, ({ decoded with
      resourceCount := clampResourceCount count } : PciBarState).resources i = {} :=
    fun i => congrFun (sameLinks_decodeBars hdec).resources i
  rwa [← (mapped_mapResources hfresh hmap).bars, List.forall₂_map_left_iff] at hslots

/--
The slots of a mapping that succeeds are those of the layout, whatever was in the state before, if
the device answers each dword the same way every time.
-/
theorem mapDeviceBars_decodes {before : PciBarState}
    (h : Runs (mapDeviceBars true before) t (true, state))
    (ht : ∀ e ∈ t, readsDwords d e = true) :
    List.Forall₂ Decodes ((List.finRange kMaxBars).map state.bars) (scan (List.ofFn d)) := by
  obtain ⟨u, w, table, rfl, -, hgather, -, hstate⟩ := mapDeviceBars_gather h
  rw [hstate rfl, List.forall₂_map_left_iff]
  refine (decodes_gather hgather fun e he => ht e (List.mem_append_left w he)).imp ?_
  intro b slot hb
  exact hb.of_decodedPart ((sameDevice_association table).bars b)

/-- The six BAR dwords of the 88W8897. -/
theorem mapDeviceBars_decodes_8897 :
    List.Forall₂ Decodes ((List.finRange kMaxBars).map table8897.bars)
      (scan [0xF0000004, 0, 0xF0100004, 0, 0, 0]) :=
  mapDeviceBars_decodes (d := fun b => device8897.bars.getD b.val 0) runs_table8897
    (by decide +kernel)

end PciBars

end MarvellW8897
