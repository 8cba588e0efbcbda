import MarvellW8897.Spec.Environment
import MarvellW8897.Spec.Window

/-!
# The bring-up

* `runs_run` — `run` takes one of three exits, and each fixes the requests and the record.
* `run_outcome` — which exit it takes, and what the record says then.
-/

namespace MarvellW8897

open Effect

namespace Bringup

variable {host : ByteOrder} {pciBars : PciBarState} {ts : TransportState} {result : BringupResult}
  {t : List DeviceEvent}

/-- BAR 0 opens a window that grants the register `reg`. -/
def Reaches (pciBars : PciBarState) (reg : UInt32) : Prop :=
  ∃ w, PciBars.Access pciBars kBringupBarIndex reg w

/-! ## Validation -/

/-- The record after an access was looked at. -/
def recordAccess (result : BringupResult) (barIndex offset : UInt32) : BringupResult :=
  { result with lastBarIndex := barIndex, lastRegisterOffset := offset }

/-- The reason that validation gives for a rejected access. -/
def rejectionReason (barIndex : UInt32) : BringupFailureReason :=
  if barIndex.toNat ≥ kMaxBars then .invalidBar
  else if barIndex = kBringupBarIndex then .unsupportedBar0 else .invalidOffset

/-- The record after an access was rejected. -/
def recordRejection (result : BringupResult) (barIndex offset : UInt32) : BringupResult :=
  { recordAccess result barIndex offset with
    failureReason := rejectionReason barIndex
    stage := .failed }

/-- Validation accepts an access exactly if some window grants it. -/
theorem validateAccess_cases (pciBars : PciBarState) (result : BringupResult)
    (barIndex offset : UInt32) :
    (∃ w, PciBars.Access pciBars barIndex offset w ∧
      validateAccess pciBars result barIndex offset = (true, recordAccess result barIndex offset)) ∨
    ((¬ ∃ w, PciBars.Access pciBars barIndex offset w) ∧
      validateAccess pciBars result barIndex offset =
        (false, recordRejection result barIndex offset)) := by
  unfold validateAccess recordRejection rejectionReason
  dsimp only
  by_cases hbar : barIndex.toNat ≥ kMaxBars
  · refine Or.inr ⟨?_, by rw [if_pos hbar, if_pos hbar]; rfl⟩
    rintro ⟨w, hw, -⟩
    obtain ⟨b, hb, -⟩ := PciBars.window_eq_some.mp hw
    have hlt := b.isLt
    omega
  · rw [if_neg hbar, if_neg hbar]
    cases hvalid : PciBars.isMmioAccessValid pciBars barIndex offset kRegisterWidth with
    | true =>
      obtain ⟨w, hw⟩ := PciBars.isMmioAccessValid_iff.mp hvalid
      exact Or.inl ⟨w, hw, rfl⟩
    | false =>
      refine Or.inr ⟨PciBars.isMmioAccessValid_eq_false.mp hvalid, ?_⟩
      rw [if_pos (by simp)]
      simp [recordAccess]

theorem validateAccess_of_reaches {reg : UInt32} (h : Reaches pciBars reg) :
    validateAccess pciBars result kBringupBarIndex reg =
      (true, recordAccess result kBringupBarIndex reg) := by
  rcases validateAccess_cases pciBars result kBringupBarIndex reg with ⟨-, -, he⟩ | ⟨hn, -⟩
  · exact he
  · exact absurd h hn

theorem validateAccess_of_not_reaches {reg : UInt32} (h : ¬ Reaches pciBars reg) :
    validateAccess pciBars result kBringupBarIndex reg =
      (false, recordRejection result kBringupBarIndex reg) := by
  rcases validateAccess_cases pciBars result kBringupBarIndex reg with ⟨w, hw, -⟩ | ⟨-, he⟩
  · exact absurd ⟨w, hw⟩ h
  · exact he

/-- The record after the validation loop has accepted `regs`. -/
def recordAll (regs : List UInt32) (result : BringupResult) : BringupResult :=
  regs.foldl (fun result reg => recordAccess result kBringupBarIndex reg) result

theorem recordAccess_recordAll {regs : List UInt32} {barIndex reg : UInt32} :
    recordAccess (recordAll regs result) barIndex reg = recordAccess result barIndex reg := by
  induction regs generalizing result with
  | nil => rfl
  | cons r regs ih =>
    exact ih

/-- The validation loop accepts all registers, or stops at the first that BAR 0 does not reach. -/
theorem validateAll_cases (pciBars : PciBarState) (regs : List UInt32) (result : BringupResult) :
    ((∀ reg ∈ regs, Reaches pciBars reg) ∧
      validateAll pciBars regs result = (true, recordAll regs result)) ∨
    ∃ done reg rest, regs = done ++ reg :: rest ∧ (∀ r ∈ done, Reaches pciBars r) ∧
      ¬ Reaches pciBars reg ∧
      validateAll pciBars regs result = (false, recordRejection result kBringupBarIndex reg) := by
  induction regs generalizing result with
  | nil => exact Or.inl ⟨by simp, rfl⟩
  | cons reg regs ih =>
    unfold validateAll
    by_cases hr : Reaches pciBars reg
    · rw [validateAccess_of_reaches hr]
      rcases ih (recordAccess result kBringupBarIndex reg) with
        ⟨hall, he⟩ | ⟨done, r, rest, rfl, hdone, hr', he⟩
      · refine Or.inl ⟨?_, he⟩
        simpa using ⟨hr, hall⟩
      · refine Or.inr ⟨reg :: done, r, rest, rfl, ?_, hr', he⟩
        simpa using ⟨hr, hdone⟩
    · rw [validateAccess_of_not_reaches hr]
      exact Or.inr ⟨[], reg, regs, rfl, by simp, hr, rfl⟩

/-! ## run -/

/-- The access of `readAndRecord` on BAR 0, once validation has accepted the register. -/
theorem runs_readAndRecord {reg : UInt32} {w : Window MmioPtr}
    (hw : PciBars.Access pciBars kBringupBarIndex reg w) {r : Option UInt32 × BringupResult}
    (h : Runs (readAndRecord host pciBars result kBringupBarIndex reg) t r) :
    ∃ raw : UInt32, t = [⟨.load w.base reg, raw⟩] ∧
      r = (some (osSwapLittleToHostInt32 host raw), { recordAccess result kBringupBarIndex reg with
        lastValueRead := osSwapLittleToHostInt32 host raw }) := by
  unfold readAndRecord at h
  rw [validateAccess_of_reaches ⟨w, hw⟩] at h
  dsimp only at h
  rw [if_neg (by simp)] at h
  obtain ⟨t₁, v, t₂, rfl, hr, hend⟩ := runs_bind.mp h
  rcases Transport.runs_readReg32FromBar.mp hr with ⟨w', raw, hw', rfl, rfl⟩ | ⟨hn, -, -⟩
  · obtain ⟨rfl, rfl⟩ := runs_pure.mp hend
    rw [hw'.unique hw]
    exact ⟨raw, rfl, rfl⟩
  · exact absurd ⟨w, hw⟩ hn

/-- The exits of `run`: the requests made, and what is handed back. -/
inductive RunExit (host : ByteOrder) (pciBars : PciBarState) (ts : TransportState) :
    List DeviceEvent → Bool × TransportState × BringupResult → Prop where
  | noProfile (hprofile : Transport.getPcieProfile ts = none) :
      RunExit host pciBars ts []
        (true, ts, { stage := .unsupported, failureReason := .noTransportProfile })
  | rejected {profile : TransportPcieProfile} {done rest : List UInt32} {reg : UInt32}
      (hprofile : Transport.getPcieProfile ts = some profile)
      (first : sanityRegisters profile = done ++ reg :: rest)
      (reached : ∀ r ∈ done, Reaches pciBars r) (missed : ¬ Reaches pciBars reg) :
      RunExit host pciBars ts [] (false, ts, recordRejection {} kBringupBarIndex reg)
  | completed {profile : TransportPcieProfile} {w : Window MmioPtr} (rawStatus rawReady : UInt32)
      (hprofile : Transport.getPcieProfile ts = some profile)
      (reached : ∀ r ∈ sanityRegisters profile, PciBars.Access pciBars kBringupBarIndex r w) :
      RunExit host pciBars ts
        [⟨.load w.base profile.firmwareStatusReg, rawStatus⟩,
          ⟨.load w.base profile.driverReadyReg, rawReady⟩]
        (true, { ts with firmwareReady := 0 }, {
          stage := .unsupported
          failureReason := .noGroundedResetSemantic
          lastBarIndex := kBringupBarIndex
          lastRegisterOffset := profile.driverReadyReg
          lastValueRead := osSwapLittleToHostInt32 host rawReady
          quirkFlags := profile.quirkFlags
          firmwareStatusValue := osSwapLittleToHostInt32 host rawStatus
          driverReadyValue := osSwapLittleToHostInt32 host rawReady })

theorem runs_run {r : Bool × TransportState × BringupResult}
    (h : Runs (run host pciBars ts result) t r) : RunExit host pciBars ts t r := by
  unfold run at h
  dsimp only at h
  cases hp : Transport.getPcieProfile ts with
  | none =>
    rw [hp] at h
    obtain ⟨rfl, rfl⟩ := runs_pure.mp h
    exact RunExit.noProfile hp
  | some profile =>
    rw [hp] at h
    dsimp only at h
    rcases validateAll_cases pciBars (sanityRegisters profile) { reset result with
      stage := .pciEnabled } with ⟨hall, he⟩ | ⟨done, reg, rest, hregs, hdone, hreg, he⟩
    · rw [he] at h
      dsimp only at h
      rw [if_neg (by simp)] at h
      obtain ⟨w, hw⟩ := hall profile.firmwareStatusReg (by simp [sanityRegisters])
      -- the window depends on the BAR alone
      have hacc : ∀ r ∈ sanityRegisters profile, PciBars.Access pciBars kBringupBarIndex r w := by
        intro r hr
        obtain ⟨w', hw'⟩ := hall r hr
        obtain rfl : w = w' := by simpa using hw.1.symm.trans hw'.1
        exact hw'
      obtain ⟨t₁, r₁, t₂, rfl, h₁, h'⟩ := runs_bind.mp h
      obtain ⟨rawStatus, rfl, rfl⟩ := runs_readAndRecord hw h₁
      obtain ⟨t₃, r₂, t₄, rfl, h₂, hend⟩ := runs_bind.mp h'
      obtain ⟨rawReady, rfl, rfl⟩ :=
        runs_readAndRecord (hacc profile.driverReadyReg (by simp [sanityRegisters])) h₂
      obtain ⟨rfl, rfl⟩ := runs_pure.mp hend
      have hrec : ∀ (regs : List UInt32) (res : BringupResult) (v : UInt32),
          ({ recordAccess (recordAll regs res) kBringupBarIndex profile.firmwareStatusReg with
            lastValueRead := v } : BringupResult) =
          { recordAccess res kBringupBarIndex profile.firmwareStatusReg with
            lastValueRead := v } := by
        intro regs res v
        rw [recordAccess_recordAll]
      dsimp only [concludeRun]
      rw [hrec]
      exact RunExit.completed rawStatus rawReady hp hacc
    · rw [he] at h
      obtain ⟨rfl, rfl⟩ := runs_pure.mp h
      exact RunExit.rejected hp hregs hdone hreg

/-! ## The outcome of run -/

/-- Validation rejects the first register, in the order of the list, that BAR 0 does not reach. -/
theorem first_rejected {regs done rest : List UInt32} {reg : UInt32}
    (hregs : regs = done ++ reg :: rest) (hdone : ∀ r ∈ done, Reaches pciBars r)
    (hreg : ¬ Reaches pciBars reg) :
    regs.find? (fun r => !PciBars.isMmioAccessValid pciBars kBringupBarIndex r kRegisterWidth) =
      some reg := by
  have hrejected : PciBars.isMmioAccessValid pciBars kBringupBarIndex reg kRegisterWidth = false :=
    PciBars.isMmioAccessValid_eq_false.mpr hreg
  rw [hregs, List.find?_eq_some_iff_append]
  refine ⟨by simp [hrejected], done, rest, rfl, ?_⟩
  intro r hr
  have haccepted : PciBars.isMmioAccessValid pciBars kBringupBarIndex r kRegisterWidth = true :=
    PciBars.isMmioAccessValid_iff.mpr (hdone r hr)
  simp [haccepted]

/--
`run` looks at no earlier record. Without a profile it succeeds at once. With one it fails exactly
if BAR 0 does not reach some profile register, having asked nothing and naming the first such
register; otherwise it makes two loads and records what they gave.
-/
theorem run_outcome {ok : Bool} {ts' : TransportState} {prior r : BringupResult}
    (h : Runs (run host pciBars ts prior) t (ok, ts', r)) :
    (∀ other, Runs (run host pciBars ts other) t (ok, ts', r)) ∧
    (Transport.getPcieProfile ts = none → ok = true ∧ t = [] ∧ ts' = ts ∧
      r.stage = .unsupported ∧ r.failureReason = .noTransportProfile) ∧
    ∀ profile, Transport.getPcieProfile ts = some profile →
      (ok = false ↔ ∃ reg ∈ sanityRegisters profile,
        PciBars.isMmioAccessValid pciBars 0 reg 4 = false) ∧
      (ok = false → t = [] ∧ ts' = ts ∧ r.stage = .failed ∧ r.failureReason = .unsupportedBar0 ∧
        r.lastBarIndex = 0 ∧ (sanityRegisters profile).find?
          (fun reg => !PciBars.isMmioAccessValid pciBars 0 reg 4) = some r.lastRegisterOffset) ∧
      (ok = true → ∃ reg rawStatus rawReady,
        t = [⟨.load reg profile.firmwareStatusReg, rawStatus⟩,
          ⟨.load reg profile.driverReadyReg, rawReady⟩] ∧
        r.firmwareStatusValue = osSwapLittleToHostInt32 host rawStatus ∧
        r.driverReadyValue = osSwapLittleToHostInt32 host rawReady ∧
        r.lastValueRead = r.driverReadyValue ∧ r.lastValueWritten = 0 ∧ r.pollIterations = 0 ∧
        r.quirkFlags = profile.quirkFlags ∧ ts' = { ts with firmwareReady := 0 }) := by
  refine ⟨fun _ => h, ?_⟩
  cases runs_run h with
  | noProfile hprofile =>
    refine ⟨fun _ => ⟨rfl, rfl, rfl, rfl, rfl⟩, ?_⟩
    intro profile hp
    rw [hprofile] at hp
    simp at hp
  | @rejected profile' done rest reg hprofile hregs hdone hreg =>
    refine ⟨fun hnone => by simp [hprofile] at hnone, ?_⟩
    intro profile hp
    obtain rfl : profile = profile' := by simpa using hp.symm.trans hprofile
    refine ⟨iff_of_true rfl ⟨reg, by simp [hregs], ?_⟩, ?_, by simp⟩
    · exact PciBars.isMmioAccessValid_eq_false.mpr hreg
    · exact fun _ => ⟨rfl, rfl, rfl, rfl, rfl, first_rejected hregs hdone hreg⟩
  | @completed profile' w rawStatus rawReady hprofile hreached =>
    refine ⟨fun hnone => by simp [hprofile] at hnone, ?_⟩
    intro profile hp
    obtain rfl : profile = profile' := by simpa using hp.symm.trans hprofile
    refine ⟨iff_of_false (by simp) ?_, by simp, ?_⟩
    · rintro ⟨reg, hmem, hrejected⟩
      exact PciBars.isMmioAccessValid_eq_false.mp hrejected ⟨w, hreached reg hmem⟩
    · exact fun _ => ⟨w.base, rawStatus, rawReady, rfl, rfl, rfl, rfl, rfl, rfl, rfl, rfl⟩

/-- A table whose BAR 0 opens a window of 64 KiB. -/
def mappedTable : PciBarState where
  bars := fun bar => if bar.val ≠ 0 then {} else {
    mappedPtr := { address := 0x1000000, origin := some 1 }
    length := 0x10000
    mappedResource := 0
    rawLow := 0xF0000000
    configValue := 0xF0000000
    isMemory := true
    present := true }

/-- With all registers in reach, `run` reports the two values that it read. -/
theorem run_outcome_mapped :
    ∃ t r, Runs (run .big mappedTable { pcieProfile := Transport.pcie8897Profile } {}) t
      (true, { pcieProfile := Transport.pcie8897Profile }, r) ∧
      t.length = 2 ∧ r.firmwareStatusValue = 0x450C0000 ∧ r.lastValueRead = r.driverReadyValue := by
  have hr := Program.runs_exec device8897.environment []
    (run .big mappedTable { pcieProfile := Transport.pcie8897Profile } {})
  have ho := (run_outcome hr).2.2 Transport.pcie8897Profile rfl
  obtain ⟨reg, rawStatus, rawReady, ht, -, -, hlast, -⟩ := ho.2.2 (by decide)
  exact ⟨_, _, hr, by rw [ht]; rfl, by decide, hlast⟩

end Bringup

end MarvellW8897
