import MarvellW8897.Kext.Transport

/-!
# Register windows

What the BAR table is for: each BAR number either opens a *window*, a base and a length, or
nothing. A window grants the 32-bit access at an offset that is a multiple of four and fits. The
kext's long check before every access is membership in this picture (`isMmioAccessValid_iff`), and
its three access functions are described by it.
-/

namespace MarvellW8897

open Effect

/-! ## Windows -/

/-- `length` bytes of registers that start at `base`. -/
structure Window (Ptr : Type) where
  base : Ptr
  length : Nat

namespace Window

variable {Ptr : Type}

/-- The window grants the 32-bit register at offset `off`. -/
def Grants (w : Window Ptr) (off : Nat) : Prop := 4 ∣ off ∧ off + 4 ≤ w.length

instance (w : Window Ptr) (off : Nat) : Decidable (w.Grants off) :=
  inferInstanceAs (Decidable (_ ∧ _))

end Window

/-! ## The windows of a BAR table -/

namespace PciBars

/-- The window that BAR number `barIndex` opens. -/
def window (state : PciBarState) (barIndex : UInt32) : Option (Window MmioPtr) :=
  if h : barIndex.toNat < kMaxBars then
    let bar := state.bars ⟨barIndex.toNat, h⟩
    if bar.eligible ∧ bar.mappedResource ≠ kInvalidResourceIndex ∧ bar.mappedPtr.address ≠ 0 then
      some { base := bar.mappedPtr, length := bar.length.toNat }
    else none
  else none

/-- BAR number `barIndex` opens `w`, and `w` grants the register at `offset`. -/
def Access (state : PciBarState) (barIndex offset : UInt32) (w : Window MmioPtr) : Prop :=
  window state barIndex = some w ∧ w.Grants offset.toNat

theorem Access.unique {state : PciBarState} {barIndex offset : UInt32} {w w' : Window MmioPtr}
    (h : Access state barIndex offset w) (h' : Access state barIndex offset w') : w = w' := by
  have he := h.1.symm.trans h'.1
  simpa using he

theorem window_eq_some {state : PciBarState} {barIndex : UInt32} {w : Window MmioPtr} :
    window state barIndex = some w ↔ ∃ b : Fin kMaxBars, barIndex.toNat = b.val ∧
      (state.bars b).eligible = true ∧
      (state.bars b).mappedResource ≠ kInvalidResourceIndex ∧
      (state.bars b).mappedPtr.address ≠ 0 ∧
      w = { base := (state.bars b).mappedPtr, length := (state.bars b).length.toNat } := by
  unfold window
  constructor
  · intro h
    split at h
    · next hb =>
      dsimp only at h
      split at h
      · next hc =>
        obtain ⟨h₁, h₂, h₃⟩ := hc
        exact ⟨⟨barIndex.toNat, hb⟩, rfl, h₁, h₂, h₃, (Option.some.inj h).symm⟩
      · simp at h
    · simp at h
  · rintro ⟨b, hb, h₁, h₂, h₃, rfl⟩
    have hlt : barIndex.toNat < kMaxBars := by rw [hb]; exact b.isLt
    have he : (⟨barIndex.toNat, hlt⟩ : Fin kMaxBars) = b := Fin.ext hb
    rw [dif_pos hlt]
    simp only [he]
    rw [if_pos ⟨h₁, h₂, h₃⟩]

/-- The alignment test of a 32-bit access. -/
theorem and_three_eq_zero (offset : UInt32) :
    offset &&& (Transport.kRegWidth - 1) = 0 ↔ 4 ∣ offset.toNat := by
  rw [← UInt32.toNat_inj, UInt32.toNat_and]
  change offset.toNat &&& (2 ^ 2 - 1) = 0 ↔ _
  rw [Nat.and_two_pow_sub_one_eq_mod]
  exact Nat.dvd_iff_mod_eq_zero.symm

/-- The bound test of a 32-bit access; the 64-bit sum does not wrap. -/
theorem not_end_gt (offset : UInt32) (length : UInt64) :
    ¬ (offset.toUInt64 + Transport.kRegWidth.toUInt64 > length) ↔
      offset.toNat + 4 ≤ length.toNat := by
  have hlt : offset.toNat < 2 ^ 32 := UInt32.toNat_lt offset
  have hsum : (offset.toUInt64 + Transport.kRegWidth.toUInt64).toNat = offset.toNat + 4 := by
    rw [UInt64.toNat_add]
    simp only [UInt32.toNat_toUInt64]
    change (offset.toNat + 4) % 2 ^ 64 = _
    omega
  rw [gt_iff_lt, UInt64.lt_iff_toNat_lt, hsum]
  omega

/-- The check in front of an access accepts exactly what some window grants. -/
theorem isMmioAccessValid_iff {state : PciBarState} {barIndex offset : UInt32} :
    isMmioAccessValid state barIndex offset Transport.kRegWidth = true ↔
      ∃ w, Access state barIndex offset w := by
  unfold Access
  constructor
  · intro h
    unfold isMmioAccessValid at h
    split at h
    · next hb =>
      dsimp only at h
      -- one line for each test that rejects
      split at h; · simp at h
      next hcont =>
      split at h; · simp at h
      next hpres =>
      split at h; · simp at h
      next hmem =>
      split at h; · simp at h
      next hres =>
      split at h; · simp at h
      next hmap =>
      split at h; · simp at h
      next halign =>
      split at h; · simp at h
      next hend =>
      refine ⟨_, window_eq_some.mpr ⟨⟨barIndex.toNat, hb⟩, rfl, ?_, ?_, ?_, rfl⟩, ?_, ?_⟩
      · simp only [BarInfo.eligible]
        simp_all
      · simpa using hres
      · simp_all
      · exact (and_three_eq_zero offset).mp (by simpa using halign)
      · exact (not_end_gt offset _).mp hend
    · simp at h
  · rintro ⟨w, hw, halign, hend⟩
    obtain ⟨b, hb, hel, hres, hptr, rfl⟩ := window_eq_some.mp hw
    have hlt : barIndex.toNat < kMaxBars := by rw [hb]; exact b.isLt
    have he : (⟨barIndex.toNat, hlt⟩ : Fin kMaxBars) = b := Fin.ext hb
    dsimp only at hend
    have hlen : (state.bars b).length ≠ 0 := by
      intro hz
      rw [hz] at hend
      simp at hend
    simp only [BarInfo.eligible, Bool.and_eq_true, Bool.not_eq_true'] at hel
    unfold isMmioAccessValid
    rw [dif_pos hlt]
    simp only [he]
    rw [if_neg (by simp [hel]), if_neg (by simp [hel]), if_neg (by simp [hel]),
      if_neg (by simpa using hres), if_neg (by simp [hptr, hlen]),
      if_neg (by simpa using (and_three_eq_zero offset).mpr halign),
      if_neg ((not_end_gt offset _).mpr hend)]

theorem isMmioAccessValid_eq_false {state : PciBarState} {barIndex offset : UInt32} :
    isMmioAccessValid state barIndex offset Transport.kRegWidth = false ↔
      ¬ ∃ w, Access state barIndex offset w := by
  rw [← isMmioAccessValid_iff, Bool.not_eq_true]

end PciBars

/-! ## The access functions -/

namespace Transport

variable {host : ByteOrder} {pciBars : PciBarState} {barIndex offset value : UInt32}
  {t : List DeviceEvent}

/--
The shape that both access functions have: the check, and then one program `act` on the pointer of
the window that granted the access.
-/
theorem runs_checked {α : Type} (act : MmioPtr → DeviceM α) {rejected r : α} :
    Runs (if !PciBars.isMmioAccessValid pciBars barIndex offset kRegWidth then pure rejected
      else if h : barIndex.toNat < kMaxBars then act (pciBars.bars ⟨barIndex.toNat, h⟩).mappedPtr
      else pure rejected) t r ↔
      (∃ w, PciBars.Access pciBars barIndex offset w ∧ Runs (act w.base) t r) ∨
      ((¬ ∃ w, PciBars.Access pciBars barIndex offset w) ∧ t = [] ∧ r = rejected) := by
  cases hv : PciBars.isMmioAccessValid pciBars barIndex offset kRegWidth with
  | true =>
    obtain ⟨w, hw⟩ := PciBars.isMmioAccessValid_iff.mp hv
    obtain ⟨b, hb, -, -, -, hwb⟩ := PciBars.window_eq_some.mp hw.1
    have hlt : barIndex.toNat < kMaxBars := by rw [hb]; exact b.isLt
    have he : (⟨barIndex.toNat, hlt⟩ : Fin kMaxBars) = b := Fin.ext hb
    have hbase : w.base = (pciBars.bars b).mappedPtr := by rw [hwb]
    rw [if_neg (by simp), dif_pos hlt, he, ← hbase]
    constructor
    · exact fun h => Or.inl ⟨w, hw, h⟩
    · rintro (⟨w', hw', h⟩ | ⟨hn, -, -⟩)
      · rw [hw.unique hw']
        exact h
      · exact absurd ⟨w, hw⟩ hn
  | false =>
    have hn := PciBars.isMmioAccessValid_eq_false.mp hv
    rw [if_pos (by simp), runs_pure]
    constructor
    · exact fun h => Or.inr ⟨hn, h⟩
    · rintro (⟨w, hw, -⟩ | ⟨-, h⟩)
      · exact absurd ⟨w, hw⟩ hn
      · exact h

/-- A read is one load through the window, or it is rejected and asks nothing. -/
theorem runs_readReg32FromBar {r : Option UInt32} :
    Runs (readReg32FromBar host pciBars barIndex offset) t r ↔
      (∃ w, ∃ raw : UInt32, PciBars.Access pciBars barIndex offset w ∧
        t = [⟨.load w.base offset, raw⟩] ∧ r = some (osSwapLittleToHostInt32 host raw)) ∨
      ((¬ ∃ w, PciBars.Access pciBars barIndex offset w) ∧ t = [] ∧ r = Option.none) := by
  refine (runs_checked (fun p => ask (.load p offset) >>= fun raw =>
    pure (some (osSwapLittleToHostInt32 host raw)))).trans ?_
  constructor
  · rintro (⟨w, hw, h⟩ | h)
    · obtain ⟨raw, rfl, rfl⟩ := runs_ask_map.mp h
      exact Or.inl ⟨w, raw, hw, rfl, rfl⟩
    · exact Or.inr h
  · rintro (⟨w, raw, hw, rfl, rfl⟩ | h)
    · exact Or.inl ⟨w, hw, runs_ask_map.mpr ⟨raw, rfl, rfl⟩⟩
    · exact Or.inr h

/-- A write is one store through the window, or it is rejected and asks nothing. -/
theorem runs_writeReg32ToBar {r : Bool} :
    Runs (writeReg32ToBar host pciBars barIndex offset value) t r ↔
      (∃ w, PciBars.Access pciBars barIndex offset w ∧
        t = [⟨.store w.base offset (osSwapHostToLittleInt32 host value), ()⟩] ∧ r = true) ∨
      ((¬ ∃ w, PciBars.Access pciBars barIndex offset w) ∧ t = [] ∧ r = false) := by
  refine (runs_checked (fun p => ask (.store p offset (osSwapHostToLittleInt32 host value)) >>=
    fun _ => pure true)).trans ?_
  constructor
  · rintro (⟨w, hw, h⟩ | h)
    · obtain ⟨_, rfl, rfl⟩ := runs_ask_map.mp h
      exact Or.inl ⟨w, hw, rfl, rfl⟩
    · exact Or.inr h
  · rintro (⟨w, hw, rfl, rfl⟩ | h)
    · exact Or.inl ⟨w, hw, runs_ask_map.mpr ⟨(), rfl, rfl⟩⟩
    · exact Or.inr h

/--
A write with flush is one store and one load of the same register, or it is rejected and asks
nothing: the second check cannot fail, since the table is the one the first check passed.
-/
theorem runs_writeReg32ToBarWithFlush {ts : TransportState} {r : Option UInt32 × TransportState} :
    Runs (writeReg32ToBarWithFlush host pciBars ts barIndex offset value) t r ↔
      (∃ w, ∃ raw : UInt32, PciBars.Access pciBars barIndex offset w ∧
        t = [⟨.store w.base offset (osSwapHostToLittleInt32 host value), ()⟩,
          ⟨.load w.base offset, raw⟩] ∧
        r = (some (osSwapLittleToHostInt32 host raw), { ts with txRingWritePtr := value })) ∨
      ((¬ ∃ w, PciBars.Access pciBars barIndex offset w) ∧ t = [] ∧ r = (Option.none, ts)) := by
  unfold writeReg32ToBarWithFlush
  rw [runs_bind]
  constructor
  · rintro ⟨t₁, ok, t₂, rfl, hw, hrest⟩
    rcases runs_writeReg32ToBar.mp hw with ⟨w, ha, rfl, rfl⟩ | ⟨hn, rfl, rfl⟩
    · rw [if_neg (by simp), runs_bind] at hrest
      obtain ⟨t₃, back, t₄, rfl, hr, hend⟩ := hrest
      rcases runs_readReg32FromBar.mp hr with ⟨w', raw, ha', rfl, rfl⟩ | ⟨hn, -, -⟩
      · obtain ⟨rfl, rfl⟩ := runs_pure.mp hend
        rw [ha'.unique ha]
        exact Or.inl ⟨w, raw, ha, rfl, rfl⟩
      · exact absurd ⟨w, ha⟩ hn
    · rw [if_pos (by simp)] at hrest
      obtain ⟨rfl, rfl⟩ := runs_pure.mp hrest
      exact Or.inr ⟨hn, rfl, rfl⟩
  · rintro (⟨w, raw, ha, rfl, rfl⟩ | ⟨hn, rfl, rfl⟩)
    · refine ⟨[_], true, [_], rfl, runs_writeReg32ToBar.mpr (Or.inl ⟨w, ha, rfl, rfl⟩), ?_⟩
      rw [if_neg (by simp), runs_bind]
      exact ⟨[_], _, [], rfl, runs_readReg32FromBar.mpr (Or.inl ⟨w, raw, ha, rfl, rfl⟩),
        runs_pure.mpr ⟨rfl, rfl⟩⟩
    · refine ⟨[], false, [], rfl, runs_writeReg32ToBar.mpr (Or.inr ⟨hn, rfl, rfl⟩), ?_⟩
      rw [if_pos (by simp), runs_pure]
      exact ⟨rfl, rfl⟩

end Transport

end MarvellW8897
