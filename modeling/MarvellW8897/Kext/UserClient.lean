import MarvellW8897.Kext.Controller

/-!
# `MarvellW8897UserClient`

The nine selectors. `externalMethod` picks a dispatch entry and hands over to
`IOUserClient::externalMethod`, which is not in this repository: it compares the caller's counts
with the entry's, and then either refuses or calls the entry's function. `Platform` holds that
much about it as a parameter, together with the host's byte order.
-/

namespace MarvellW8897

open Effect

/-! ## Calls -/

/-- `IOReturn`, which is a `kern_return_t`. -/
abbrev IOReturn := UInt32

def kIOReturnSuccess : IOReturn := 0
def kIOReturnBadArgument : IOReturn := 0xe00002c2
def kIOReturnUnsupported : IOReturn := 0xe00002c7

/-- The part of `IOExternalMethodArguments` that scalar methods use on the way in. -/
structure ExternalMethodArguments where
  scalarInput : List UInt64
  structureInputSize : UInt32 := 0
  scalarOutputCount : UInt32 := 0
  structureOutputSize : UInt32 := 0
deriving DecidableEq, Repr

/-- `args->scalarInput[i]`; the counts are checked before any function reads it. -/
def ExternalMethodArguments.scalar (args : ExternalMethodArguments) (i : Nat) : UInt64 :=
  args.scalarInput.getD i 0

/-- What a call gives back: its code, and the scalars it wrote to `args->scalarOutput`. -/
structure Reply where
  ret : IOReturn
  scalarOutput : List UInt64 := []
deriving DecidableEq, Repr

/-- The counts of an `IOExternalMethodDispatch` entry. -/
structure DispatchCounts where
  checkScalarInputCount : UInt32
  checkStructureInputSize : UInt32
  checkScalarOutputCount : UInt32
  checkStructureOutputSize : UInt32
deriving DecidableEq, Repr

/-- The caller's counts are the ones the entry asks for. -/
def DispatchCounts.Match (counts : DispatchCounts) (args : ExternalMethodArguments) : Prop :=
  args.scalarInput.length = counts.checkScalarInputCount.toNat ∧
    args.structureInputSize = counts.checkStructureInputSize ∧
    args.scalarOutputCount = counts.checkScalarOutputCount ∧
    args.structureOutputSize = counts.checkStructureOutputSize

instance (counts : DispatchCounts) (args : ExternalMethodArguments) :
    Decidable (counts.Match args) := inferInstanceAs (Decidable (_ ∧ _))

/--
What the kext relies on outside its own code. `refuse` is the check that
`IOUserClient::externalMethod` makes before it calls the function of a dispatch entry: `some r`
means that it returns `r` without the call.
-/
structure Platform where
  host : ByteOrder
  refuse : DispatchCounts → ExternalMethodArguments → Option IOReturn
  /-- A refusal is an error. -/
  refuse_error : ∀ counts args r, refuse counts args = some r → r ≠ kIOReturnSuccess
  /-- Exactly the calls with matching counts get through. -/
  refuse_none : ∀ counts args, refuse counts args = none ↔ counts.Match args

/-! ## Handlers -/

abbrev Handler := ByteOrder → Controller → ExternalMethodArguments → DeviceM (Reply × Controller)

/-- A reply that reports success and writes `out`. -/
def Reply.success (out : List UInt64) : Reply := { ret := kIOReturnSuccess, scalarOutput := out }

/--
The handlers that export a record. The getter fails only on a null buffer, and the handler passes
its own, so the branch that returns `kIOReturnError` is never taken.
-/
def replyFields (fields : Controller → List UInt64) : Handler := fun _ c _ =>
  return (.success (fields c), c)

/-- What a fallible handler answers: the scalars, or `kIOReturnBadArgument`. -/
def replyOrBadArgument (out : Option (List UInt64)) : Reply :=
  match out with
  | some out => .success out
  | none => { ret := kIOReturnBadArgument }

def sGetPciInfo : Handler := replyFields Controller.getPciIdentity

def sGetBarInfoLegacy : Handler := fun _ c args =>
  -- `static_cast<uint32_t>`, here and below: the upper half of a scalar is dropped unseen
  let barIndex := (args.scalar 0).toUInt32
  return (replyOrBadArgument (c.getBarInfoLegacy barIndex), c)

def sGetBarInfoV2 : Handler := fun _ c args => do
  let barIndex := (args.scalar 0).toUInt32
  let info ← c.getBarInfoV2 barIndex
  return (replyOrBadArgument info, c)

def sReadReg32FromBar : Handler := fun host c args => do
  let barIndex := (args.scalar 0).toUInt32
  let offset := (args.scalar 1).toUInt32
  let value ← c.readReg32FromBar host barIndex offset
  return (replyOrBadArgument (value.map (fun v => [v.toUInt64])), c)

def sWriteReg32ToBar : Handler := fun host c args => do
  let barIndex := (args.scalar 0).toUInt32
  let offset := (args.scalar 1).toUInt32
  let value := (args.scalar 2).toUInt32
  let ok ← c.writeReg32ToBar host barIndex offset value
  return (replyOrBadArgument (if ok then some [] else none), c)

def sGetTransportState : Handler := replyFields Controller.getTransportState

def sWriteReg32ToBarWithFlush : Handler := fun host c args => do
  let barIndex := (args.scalar 0).toUInt32
  let offset := (args.scalar 1).toUInt32
  let value := (args.scalar 2).toUInt32
  let (readBack, c) ← c.writeReg32ToBarWithFlush host barIndex offset value
  return (replyOrBadArgument (readBack.map (fun v => [v.toUInt64])), c)

def sGetDebugAbiInfo : Handler := replyFields (fun _ => Debug.getDebugAbiInfo)

def sGetBringupResult : Handler := replyFields Controller.getBringupResult

/-! ## Dispatch -/

abbrev kMarvellMethodCount : Nat := 9

/-- An entry that takes `inputs` scalars, returns `outputs` scalars, and no structures. -/
def scalarCounts (inputs outputs : UInt32) : DispatchCounts where
  checkScalarInputCount := inputs
  checkStructureInputSize := 0
  checkScalarOutputCount := outputs
  checkStructureOutputSize := 0

def gDispatchTable : Fin kMarvellMethodCount → Handler × DispatchCounts
  | 0 => (sGetPciInfo, scalarCounts 0 10)
  | 1 => (sGetBarInfoLegacy, scalarCounts 1 8)
  | 2 => (sReadReg32FromBar, scalarCounts 2 1)
  | 3 => (sWriteReg32ToBar, scalarCounts 3 0)
  | 4 => (sGetBarInfoV2, scalarCounts 1 11)
  | 5 => (sGetTransportState, scalarCounts 0 8)
  | 6 => (sWriteReg32ToBarWithFlush, scalarCounts 3 1)
  | 7 => (sGetDebugAbiInfo, scalarCounts 0 6)
  | 8 => (sGetBringupResult, scalarCounts 0 12)

def externalMethod (platform : Platform) (c : Controller) (selector : UInt32)
    (args : ExternalMethodArguments) : DeviceM (Reply × Controller) :=
  if h : selector.toNat < kMarvellMethodCount then
    let entry := gDispatchTable ⟨selector.toNat, h⟩
    match platform.refuse entry.2 args with
    | some r => return ({ ret := r }, c)
    | none => entry.1 platform.host c args
  else return ({ ret := kIOReturnUnsupported }, c)

end MarvellW8897
