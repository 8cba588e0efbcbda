import Mathlib.Data.List.FinRange
import Mathlib.Logic.Function.Basic
import MarvellW8897.Probe.Connection
import MarvellW8897.Probe.Options

/-!
# `marvell_probe`

The `main` of the probe and the functions it calls.
-/

namespace MarvellW8897

namespace Probe

open Effect

/-! ## The PCI record and the ABI -/

def getPciInfo : ProbeM Unit := do
  let (kr, outCount, out) ← callScalarMethod (n := 10) kMarvellMethodGetPciInfo [] (fun _ => 0) 10
  print (.returned kMarvellMethodGetPciInfo kr outCount)
  if kr = kIOReturnSuccess then
    printFields (.field kMarvellMethodGetPciInfo) out outCount

/-- The locals that the debug ABI record sets. -/
structure AbiInfo where
  haveAbiInfo : Bool := false
  selectorBitmap : UInt64 := 0
  legacyBarCount : UInt32 := 8
  v2BarCount : UInt32 := 11
  transportCount : UInt32 := 8
deriving DecidableEq, Repr

def selectorSupported (bitmap : UInt64) (selector : UInt32) : Bool :=
  (bitmap &&& (1 <<< selector.toUInt64)) != 0

def getDebugAbiInfo : ProbeM AbiInfo := do
  let (kr, abiOutCount, abiInfo) ←
    callScalarMethod (n := 6) kMarvellMethodGetDebugAbiInfo [] (fun _ => 0) 6
  print (.returned kMarvellMethodGetDebugAbiInfo kr abiOutCount)
  if kr = kIOReturnSuccess ∧ abiOutCount ≥ 6 then
    printFields (.field kMarvellMethodGetDebugAbiInfo) abiInfo abiOutCount
    return {
      haveAbiInfo := true
      selectorBitmap := abiInfo 2
      legacyBarCount := (abiInfo 3).toUInt32
      v2BarCount := (abiInfo 4).toUInt32
      transportCount := (abiInfo 5).toUInt32 }
  else if kr = kUnsupported then
    print (.unsupported kMarvellMethodGetDebugAbiInfo)
    return {}
  else return {}

/-! ## The explicit register read -/

def explicitReadBarReg (bar offset : UInt32) : ProbeM Bool := do
  print (.warning bar offset)
  let (kr, outCount, out) ← callScalarMethod (n := 1) kMarvellMethodReadReg32FromBar
    [bar.toUInt64, offset.toUInt64] (fun _ => 0) 1
  print (.registerRead bar offset kr outCount
    (if kr = kIOReturnSuccess ∧ outCount > 0 then some (out 0) else none))
  return kr = kIOReturnSuccess

def explicitRead (abi : AbiInfo) (options : ProbeOptions) : ProbeM Unit := do
  if options.readBarReg then
    if abi.haveAbiInfo && !selectorSupported abi.selectorBitmap kMarvellMethodReadReg32FromBar then
      print (.notAdvertised kMarvellMethodReadReg32FromBar)
    else
      let readOk ← explicitReadBarReg options.readBar options.readOffset
      if !readOk then print .readFailed

/-! ## BAR records -/

structure BarInfoSnapshot where
  valid : Bool := false
  fields : Fin kBarInfoV2FieldCount → UInt64 := fun _ => 0

/-- `tryGetBarInfo`; `none` is a null `snapshot`. -/
def tryGetBarInfo (selector bar want : UInt32) (snapshot : Option BarInfoSnapshot) :
    ProbeM (Bool × Option BarInfoSnapshot) := do
  let (kr, outCount, out) ← callScalarMethod (n := 11) selector [bar.toUInt64] (fun _ => 0) want
  print (.barInfo selector bar want kr outCount)
  if kr ≠ kIOReturnSuccess then return (false, snapshot)
  else
    let snapshot :=
      if outCount ≥ UInt32.ofNat kBarInfoV2FieldCount then
        snapshot.map (fun _ => { valid := true, fields := out })
      else snapshot
    printFields (.barField bar) out outCount
    return (true, snapshot)

/-- The loop over `wants`: whether one of them was answered. -/
def tryWants (bar : UInt32) : List UInt32 → ProbeM Bool
  | [] => return false
  | want :: wants => do
    let (ok, _) ← tryGetBarInfo kMarvellMethodGetBarInfoLegacy bar want none
    if ok then return true else tryWants bar wants

/-- The V2 query to a kext that reported its ABI; `false` if V2 is not advertised. -/
def queryAdvertisedV2 (abi : AbiInfo) (bar : UInt32) (snapshot : BarInfoSnapshot) :
    ProbeM (Bool × Option BarInfoSnapshot) :=
  if selectorSupported abi.selectorBitmap kMarvellMethodGetBarInfoV2 then
    tryGetBarInfo kMarvellMethodGetBarInfoV2 bar abi.v2BarCount (some snapshot)
  else return (false, some snapshot)

/-- The queries to a kext that reported its ABI: those that it advertises. -/
def queryAdvertised (abi : AbiInfo) (bar : UInt32) (snapshot : BarInfoSnapshot) :
    ProbeM (Bool × Option BarInfoSnapshot) := do
  let (ok, snapshot) ← queryAdvertisedV2 abi bar snapshot
  if !ok && selectorSupported abi.selectorBitmap kMarvellMethodGetBarInfoLegacy then
    let (ok, _) ← tryGetBarInfo kMarvellMethodGetBarInfoLegacy bar abi.legacyBarCount none
    return (ok, snapshot)
  else return (ok, snapshot)

/-- The queries to a kext that did not. -/
def queryFallback (bar : UInt32) (snapshot : BarInfoSnapshot) :
    ProbeM (Bool × Option BarInfoSnapshot) := do
  let (ok, snapshot) ← tryGetBarInfo kMarvellMethodGetBarInfoV2 bar 11 (some snapshot)
  if ok then return (true, snapshot)
  else
    let ok ← tryWants bar [11, 10, 8]
    return (ok, snapshot)

def queryByAbi (abi : AbiInfo) (bar : UInt32) (snapshot : BarInfoSnapshot) :
    ProbeM (Bool × Option BarInfoSnapshot) :=
  if abi.haveAbiInfo then queryAdvertised abi bar snapshot else queryFallback bar snapshot

/-- The body of the loop over the BARs. -/
def queryBar (abi : AbiInfo) (snapshots : Fin kMaxBars → BarInfoSnapshot) (b : Fin kMaxBars) :
    ProbeM (Fin kMaxBars → BarInfoSnapshot) := do
  let bar := UInt32.ofNat b.val
  let (ok, snapshot) ← queryByAbi abi bar (snapshots b)
  if !ok then print (.noCompatibleAbi bar)
  return Function.update snapshots b (snapshot.getD (snapshots b))

def queryBars (abi : AbiInfo) : ProbeM (Fin kMaxBars → BarInfoSnapshot) :=
  (List.finRange kMaxBars).foldlM (queryBar abi) (fun _ => {})

/-! ## The BAR summary -/

namespace BarInfoSnapshot

variable (snapshot : BarInfoSnapshot)

def present : Bool := snapshot.fields 4 != 0
def isMemory : Bool := snapshot.fields 5 != 0
def is64Bit : Bool := snapshot.fields 6 != 0
def isContinuation : Bool := snapshot.fields 7 != 0
def mappedResource : UInt64 := snapshot.fields 8
def length : UInt64 := snapshot.fields 9
def physicalAddress : UInt64 := snapshot.fields 10

def mapped : Option MappedSummary :=
  if snapshot.mappedResource != kInvalidResourceIndex && snapshot.length != 0 then
    some {
      mappedResource := snapshot.mappedResource
      physicalAddress := snapshot.physicalAddress
      length := snapshot.length }
  else none

def summary : BarSummary where
  type := if snapshot.isContinuation then .continuation
    else if snapshot.isMemory then .memory else .io
  present := snapshot.present
  width := if snapshot.isContinuation then none else if snapshot.is64Bit then some 64 else some 32
  mapped := snapshot.mapped
  rawLow := snapshot.fields 1
  rawHigh := snapshot.fields 2

/-- The mapping that is printed as a candidate: the one of a mapped memory BAR. -/
def candidate : Option MappedSummary :=
  if snapshot.present && snapshot.isMemory && !snapshot.isContinuation then snapshot.mapped
  else none

end BarInfoSnapshot

/-- The body of the loop in `printBarSummary`; the flag is `sawMappedMemory`. -/
def printBar (snapshots : Fin kMaxBars → BarInfoSnapshot) (sawMappedMemory : Bool)
    (bar : Fin kMaxBars) : ProbeM Bool := do
  if !(snapshots bar).valid then
    print (.barSummary bar none)
    return sawMappedMemory
  else
    print (.barSummary bar (some (snapshots bar).summary))
    match (snapshots bar).candidate with
    | some mapped =>
      print (.candidate bar mapped)
      return true
    | none => return sawMappedMemory

def printBarSummary (snapshots : Fin kMaxBars → BarInfoSnapshot) : ProbeM Unit := do
  print .summaryHeader
  let sawMappedMemory ← (List.finRange kMaxBars).foldlM (printBar snapshots) false
  if !sawMappedMemory then print .noCandidates
  print .summaryNote

/-! ## The bring-up record and the transport state -/

def getBringupResult (abi : AbiInfo) : ProbeM Unit := do
  if abi.haveAbiInfo && selectorSupported abi.selectorBitmap kMarvellMethodGetBringupResult then
    let (kr, outCount, out) ← callScalarMethod (n := kBringupResultCount)
      kMarvellMethodGetBringupResult [] (fun _ => 0) (UInt32.ofNat kBringupResultCount)
    print (.returned kMarvellMethodGetBringupResult kr outCount)
    if kr = kIOReturnSuccess ∧ outCount ≥ UInt32.ofNat kBringupResultCount then
      (List.finRange kBringupResultCount).forM fun i =>
        print (.field kMarvellMethodGetBringupResult (UInt32.ofNat i.val) (out i))
    else if kr = kUnsupported then print (.unsupported kMarvellMethodGetBringupResult)
  else print (.notAdvertised kMarvellMethodGetBringupResult)

/-- What follows the last call for the transport state. -/
def printTransportState (selector : UInt32) (kr : IOReturn) (outCount : UInt32)
    (out : Fin 8 → UInt64) : ProbeM Unit := do
  print (.returned selector kr outCount)
  if kr = kIOReturnSuccess then printFields (.field selector) out outCount
  else if kr = kUnsupported then print (.unsupported selector)

def getTransportState (abi : AbiInfo) : ProbeM Unit := do
  if abi.haveAbiInfo && !selectorSupported abi.selectorBitmap kMarvellMethodGetTransportState then
    print (.notAdvertised kMarvellMethodGetTransportState)
  else
    let (kr, outCount, out) ← callScalarMethod (n := 8) kMarvellMethodGetTransportState []
      (fun _ => 0) abi.transportCount
    if !abi.haveAbiInfo ∧ kr = kUnsupported then
      let (kr, outCount, out) ← callScalarMethod kLegacyMethodGetTransportState [] out 8
      printTransportState kLegacyMethodGetTransportState kr outCount out
    else printTransportState kMarvellMethodGetTransportState kr outCount out

/-! ## main -/

/-- What `main` does with an open connection. -/
def diagnose (options : ProbeOptions) : ProbeM Unit := do
  getPciInfo
  let abi ← getDebugAbiInfo
  explicitRead abi options
  let barSnapshots ← queryBars abi
  printBarSummary barSnapshots
  getBringupResult abi
  getTransportState abi

/-- `main` after its options were accepted. -/
def connect (options : ProbeOptions) : ProbeM UInt32 := do
  let service : Bool ← ask .getMatchingService
  if !service then
    print .noService
    return 1
  else
    let kr : IOReturn ← ask .serviceOpen
    ask .objectRelease
    if kr ≠ kIOReturnSuccess then
      print (.openFailed kr)
      return 1
    else
      diagnose options
      ask .serviceClose
      return 0

/-- The diagnostic of `parseOptions` about an unaligned offset. -/
def printRefusal (refused : Option UInt32) : ProbeM Unit :=
  match refused with
  | some offset => print (.refusing offset)
  | none => return ()

/-- `main`, and `parseOptions` as far as it prints or exits: the exit code. -/
def main (argv : List CString) : ProbeM UInt32 :=
  match parseOptions argv with
  | .accepted options => connect options
  | .rejected refused => do
    printRefusal refused
    print .usage
    return 2
  | .help => do
    print .usage
    return 0
  | .pastEnd => ask .undefined

end Probe

end MarvellW8897
