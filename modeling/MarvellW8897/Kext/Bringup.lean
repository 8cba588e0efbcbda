import MarvellW8897.Kext.Transport

/-!
# `MarvellW8897Bringup`

The conservative bring-up: validate the profile's registers, read two of them, and report that no
reset semantic is grounded. The polling and write-and-verify helpers are here too, although `run`
does not call them. The result record is passed in and handed back, as the C++ reference is.
-/

namespace MarvellW8897

open Effect

inductive BringupStage where
  | notStarted
  | pciEnabled
  | barsMapped
  | sanityChecked
  | resetAttempted
  | resetObserved
  | readyObserved
  | timedOut
  | unsupported
  | failed
deriving DecidableEq, Repr

inductive BringupFailureReason where
  | none
  | invalidBar
  | invalidOffset
  | readFailed
  | writeFailed
  | verifyMismatch
  | timeout
  | noGroundedResetSemantic
  | noTransportProfile
  | unsupportedBar0
deriving DecidableEq, Repr

/-- The value of the enumerator, as `static_cast<uint64_t>` gives it. -/
def BringupStage.toUInt64 : BringupStage → UInt64
  | .notStarted => 0
  | .pciEnabled => 1
  | .barsMapped => 2
  | .sanityChecked => 3
  | .resetAttempted => 4
  | .resetObserved => 5
  | .readyObserved => 6
  | .timedOut => 7
  | .unsupported => 8
  | .failed => 9

def BringupFailureReason.toUInt64 : BringupFailureReason → UInt64
  | .none => 0
  | .invalidBar => 1
  | .invalidOffset => 2
  | .readFailed => 3
  | .writeFailed => 4
  | .verifyMismatch => 5
  | .timeout => 6
  | .noGroundedResetSemantic => 7
  | .noTransportProfile => 8
  | .unsupportedBar0 => 9

structure BringupResult where
  stage : BringupStage := .notStarted
  failureReason : BringupFailureReason := .none
  resetAttempted : Bool := false
  readyObserved : Bool := false
  lastBarIndex : UInt32 := kInvalidResourceIndex
  lastRegisterOffset : UInt32 := 0
  lastValueRead : UInt32 := 0
  lastValueWritten : UInt32 := 0
  pollIterations : UInt32 := 0
  quirkFlags : UInt32 := 0
  firmwareStatusValue : UInt32 := 0
  driverReadyValue : UInt32 := 0
deriving DecidableEq, Repr

namespace Bringup

def kBringupBarIndex : UInt32 := 0
def kRegisterWidth : UInt32 := 4

def reset (_result : BringupResult) : BringupResult := {}

/-! ## Helpers -/

def validateAccess (pciBars : PciBarState) (result : BringupResult) (barIndex offset : UInt32) :
    Bool × BringupResult :=
  let result := { result with lastBarIndex := barIndex, lastRegisterOffset := offset }
  if barIndex.toNat ≥ kMaxBars then
    (false, { result with failureReason := .invalidBar, stage := .failed })
  else if !PciBars.isMmioAccessValid pciBars barIndex offset kRegisterWidth then
    (false, { result with
      failureReason := if barIndex == kBringupBarIndex then .unsupportedBar0 else .invalidOffset
      stage := .failed })
  else (true, result)

/-- `readAndRecord`; `none` is `false`, with `valueOut` untouched. -/
def readAndRecord (host : ByteOrder) (pciBars : PciBarState) (result : BringupResult)
    (barIndex offset : UInt32) : DeviceM (Option UInt32 × BringupResult) := do
  let (valid, result) := validateAccess pciBars result barIndex offset
  if !valid then return (Option.none, result)
  else
    match ← Transport.readReg32FromBar host pciBars barIndex offset with
    | Option.none =>
      return (Option.none, { result with failureReason := .readFailed, stage := .failed })
    | some value => return (some value, { result with lastValueRead := value })

/-! ## Polling -/

/-- The loop of `pollReg32MaskedEq`, from iteration `i` on, with `n` iterations left. -/
def pollLoop (host : ByteOrder) (pciBars : PciBarState)
    (barIndex offset mask expected maxPolls delayUsec : UInt32) :
    (n : Nat) → (i : UInt32) → BringupResult → DeviceM (Bool × BringupResult)
  | 0, _, result => return (false, { result with failureReason := .timeout, stage := .timedOut })
  | n + 1, i, result => do
    match ← Transport.readReg32FromBar host pciBars barIndex offset with
    | Option.none =>
      return (false, { result with
        failureReason := .readFailed, stage := .failed, pollIterations := i + 1 })
    | some value =>
      let result := { result with lastValueRead := value, pollIterations := i + 1 }
      if (value &&& mask) == expected then return (true, result)
      else
        -- no delay after the last poll
        if i + 1 < maxPolls && delayUsec != 0 then ask (.delay delayUsec)
        pollLoop host pciBars barIndex offset mask expected maxPolls delayUsec n (i + 1) result

def pollReg32MaskedEq (host : ByteOrder) (pciBars : PciBarState) (result : BringupResult)
    (barIndex offset mask expected maxPolls delayUsec : UInt32) :
    DeviceM (Bool × BringupResult) :=
  let (valid, result) := validateAccess pciBars result barIndex offset
  if !valid then return (false, result)
  else if maxPolls == 0 then
    return (false, { result with failureReason := .timeout, stage := .timedOut })
  else
    pollLoop host pciBars barIndex offset mask expected maxPolls delayUsec maxPolls.toNat 0
      { result with pollIterations := 0 }

def pollReg32Eq (host : ByteOrder) (pciBars : PciBarState) (result : BringupResult)
    (barIndex offset expected maxPolls delayUsec : UInt32) : DeviceM (Bool × BringupResult) :=
  pollReg32MaskedEq host pciBars result barIndex offset 0xFFFFFFFF expected maxPolls delayUsec

def writeReg32AndVerify (host : ByteOrder) (pciBars : PciBarState) (result : BringupResult)
    (barIndex offset value verifyMask maxPolls delayUsec : UInt32) :
    DeviceM (Bool × BringupResult) := do
  let (valid, result) := validateAccess pciBars result barIndex offset
  if !valid then return (false, result)
  else
    let result := { result with lastValueWritten := value }
    if !(← Transport.writeReg32ToBar host pciBars barIndex offset value) then
      return (false, { result with failureReason := .writeFailed, stage := .failed })
    else
      let (matched, result) ← pollReg32MaskedEq host pciBars result barIndex offset verifyMask
        (value &&& verifyMask) maxPolls delayUsec
      if !matched && result.failureReason == .timeout then
        return (matched, { result with failureReason := .verifyMismatch, stage := .failed })
      else return (matched, result)

/-! ## run -/

/-- `sanityRegisters`: the registers that must be reachable, in the order they are checked. -/
def sanityRegisters (profile : TransportPcieProfile) : List UInt32 :=
  [profile.firmwareStatusReg, profile.driverReadyReg, profile.txReadPointerReg,
    profile.txWritePointerReg, profile.rxReadPointerReg, profile.rxWritePointerReg,
    profile.eventReadPointerReg, profile.eventWritePointerReg]

/-- The validation loop of `run`: stops at the first register that is rejected. -/
def validateAll (pciBars : PciBarState) : List UInt32 → BringupResult → Bool × BringupResult
  | [], result => (true, result)
  | reg :: regs, result =>
    match validateAccess pciBars result kBringupBarIndex reg with
    | (true, result) => validateAll pciBars regs result
    | (false, result) => (false, result)

/-- The tail of `run`, after both registers were read. -/
def concludeRun (profile : TransportPcieProfile) (transportState : TransportState)
    (result : BringupResult) (firmwareStatusValue driverReadyValue : UInt32) :
    TransportState × BringupResult :=
  ({ transportState with firmwareReady := 0 },
    { result with
      pollIterations := 0
      lastValueWritten := 0
      quirkFlags := profile.quirkFlags
      firmwareStatusValue
      driverReadyValue
      resetAttempted := false
      readyObserved := false
      failureReason := .noGroundedResetSemantic
      stage := .unsupported })

def run (host : ByteOrder) (pciBars : PciBarState) (transportState : TransportState)
    (result : BringupResult) : DeviceM (Bool × TransportState × BringupResult) := do
  let result := { reset result with stage := .pciEnabled }
  match Transport.getPcieProfile transportState with
  | Option.none =>
    return (true, transportState,
      { result with failureReason := .noTransportProfile, stage := .unsupported })
  | some profile =>
    let (valid, result) := validateAll pciBars (sanityRegisters profile) result
    if !valid then return (false, transportState, result)
    else
      match ← readAndRecord host pciBars result kBringupBarIndex profile.firmwareStatusReg with
      | (Option.none, result) => return (false, transportState, result)
      | (some firmwareStatusValue, result) =>
        match ← readAndRecord host pciBars result kBringupBarIndex profile.driverReadyReg with
        | (Option.none, result) => return (false, transportState, result)
        | (some driverReadyValue, result) =>
          let (transportState, result) :=
            concludeRun profile transportState result firmwareStatusValue driverReadyValue
          return (true, transportState, result)

/-! ## Exported record -/

/-- The twelve fields of `getBringupResult`. -/
def fields (result : BringupResult) : List UInt64 :=
  [result.stage.toUInt64, result.failureReason.toUInt64, result.lastBarIndex.toUInt64,
    result.lastRegisterOffset.toUInt64, result.lastValueRead.toUInt64,
    result.lastValueWritten.toUInt64, result.pollIterations.toUInt64,
    result.firmwareStatusValue.toUInt64, result.driverReadyValue.toUInt64,
    result.quirkFlags.toUInt64, result.resetAttempted.toUInt64, result.readyObserved.toUInt64]

end Bringup

end MarvellW8897
