import MarvellW8897.Effect.Program
import MarvellW8897.Kext.UserClient

/-!
# What the probe asks for

The calls that `marvell_probe` makes through `IOKitLib`, and its output. A line of output is its
format with the values that go into it; the texts themselves are left out. The local arrays have a
fixed size, so they are functions of a `Fin`; a read at an index that the code does not check and
that lies outside is a request, which can give any value at all.
-/

namespace MarvellW8897

namespace Probe

open Effect

/-! ## Constants -/

def kUnsupported : IOReturn := 0xe00002c7

def kMarvellMethodGetPciInfo : UInt32 := 0
def kMarvellMethodGetBarInfoLegacy : UInt32 := 1
def kMarvellMethodReadReg32FromBar : UInt32 := 2
def kMarvellMethodGetBarInfoV2 : UInt32 := 4
def kLegacyMethodGetTransportState : UInt32 := 4
def kMarvellMethodGetTransportState : UInt32 := 5
def kMarvellMethodGetDebugAbiInfo : UInt32 := 7
def kMarvellMethodGetBringupResult : UInt32 := 8
abbrev kBringupResultCount : Nat := 12
abbrev kMaxBars : Nat := 6
abbrev kBarInfoV2FieldCount : Nat := 11
def kInvalidResourceIndex : UInt64 := 0xffffffff

/-! ## Requests -/

/-- The arguments of `IOConnectCallScalarMethod`. -/
structure ConnectCall where
  selector : UInt32
  input : List UInt64
  /-- How many scalars the array passed as `output` holds. -/
  capacity : Nat
  /-- `*outputCnt` at the call. -/
  outCount : UInt32
deriving DecidableEq, Repr

/-- What it gives back: its code, `*outputCnt`, and the scalars it wrote from `output[0]` on. -/
structure ConnectReply where
  ret : IOReturn
  outCount : UInt32
  out : List UInt64
deriving DecidableEq, Repr

/-- What `printBarSummary` says about a mapping. -/
structure MappedSummary where
  mappedResource : UInt64
  physicalAddress : UInt64
  length : UInt64
deriving DecidableEq, Repr

/-- `type` in a line of the BAR summary. -/
inductive BarType where
  | continuation
  | memory
  | io
deriving DecidableEq, Repr

structure BarSummary where
  type : BarType
  present : Bool
  /-- 64 or 32; `-` for a continuation. -/
  width : Option Nat
  mapped : Option MappedSummary
  rawLow : UInt64
  rawHigh : UInt64
deriving DecidableEq, Repr

/-- A line of output. -/
inductive Line where
  | usage
  | refusing (offset : UInt32)
  | noService
  | openFailed (kr : IOReturn)
  | returned (selector : UInt32) (kr : IOReturn) (outCount : UInt32)
  | field (selector index : UInt32) (value : UInt64)
  | unsupported (selector : UInt32)
  | notAdvertised (selector : UInt32)
  | warning (bar offset : UInt32)
  | registerRead (bar offset : UInt32) (kr : IOReturn) (outCount : UInt32) (value : Option UInt64)
  | readFailed
  | barInfo (selector bar want : UInt32) (kr : IOReturn) (outCount : UInt32)
  | barField (bar index : UInt32) (value : UInt64)
  | noCompatibleAbi (bar : UInt32)
  | summaryHeader
  | barSummary (bar : Fin kMaxBars) (summary : Option BarSummary)
  | candidate (bar : Fin kMaxBars) (mapped : MappedSummary)
  | noCandidates
  | summaryNote
deriving DecidableEq, Repr

inductive ProbeOp where
  /-- `IOServiceGetMatchingService`: whether there is a service. -/
  | getMatchingService
  | serviceOpen
  | objectRelease
  | serviceClose
  | connectCall (call : ConnectCall)
  | print (line : Line)
  /-- A read of a local array of `size` elements at an index past its end. -/
  | readPast (size index : Nat)
  /-- Behaviour that the language leaves undefined; it can end in any exit code. -/
  | undefined
deriving DecidableEq, Repr

abbrev ProbeOp.Resp : ProbeOp → Type
  | .getMatchingService => Bool
  | .serviceOpen => IOReturn
  | .connectCall _ => ConnectReply
  | .readPast _ _ => UInt64
  | .undefined => UInt32
  | _ => Unit

abbrev ProbeEvent := Event ProbeOp ProbeOp.Resp

abbrev ProbeM := Program ProbeOp ProbeOp.Resp

abbrev ask (op : ProbeOp) : ProbeM op.Resp := Program.ask op

abbrev print (line : Line) : ProbeM Unit := ask (.print line)

/-! ## Local arrays -/

/-- `out[i]`, where nothing checks `i`. -/
def readOut {n : Nat} (out : Fin n → UInt64) (i : Nat) : ProbeM UInt64 :=
  if h : i < n then return out ⟨i, h⟩ else ask (.readPast n i)

/-- The array after a call that wrote `written` into it. What went past its end is not recorded. -/
def fill {n : Nat} (out : Fin n → UInt64) (written : List UInt64) : Fin n → UInt64 :=
  fun i => written.getD i.val (out i)

/-- `IOConnectCallScalarMethod` with the array `out`: its code, `*outputCnt`, and the array. -/
def callScalarMethod {n : Nat} (selector : UInt32) (input : List UInt64) (out : Fin n → UInt64)
    (outCount : UInt32) : ProbeM (IOReturn × UInt32 × (Fin n → UInt64)) := do
  let reply : ConnectReply ← ask (.connectCall { selector, input, capacity := n, outCount })
  return (reply.ret, reply.outCount, fill out reply.out)

/-- `for (uint32_t i = 0; i < outCount; ++i)`, printing `out[i]`. -/
def printFields {n : Nat} (line : UInt32 → UInt64 → Line) (out : Fin n → UInt64)
    (outCount : UInt32) : ProbeM Unit :=
  (List.range outCount.toNat).forM fun i => do
    let value ← readOut out i
    print (line (UInt32.ofNat i) value)

end Probe

end MarvellW8897
