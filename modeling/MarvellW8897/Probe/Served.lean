import MarvellW8897.Kext.System
import MarvellW8897.Probe.Main

/-!
# The probe against the kext

A call of the probe goes through `IOConnectCallScalarMethod` and the kernel's side of it, which are
not in this repository. The kernel either turns the call down itself, or hands it to
`externalMethod` of the instance and takes back the code and the scalars.
-/

namespace MarvellW8897

open Effect

namespace Probe

/-- A call with what it gave back. -/
structure Exchange where
  call : ConnectCall
  reply : ConnectReply
deriving DecidableEq, Repr

def exchange : ProbeEvent → Option Exchange
  | ⟨.connectCall call, reply⟩ => some ⟨call, reply⟩
  | _ => none

/-- The calls of a run of the probe, in order. -/
def exchanges (t : List ProbeEvent) : List Exchange := t.filterMap exchange

@[simp] theorem exchanges_nil : exchanges [] = [] := rfl

@[simp] theorem exchanges_append (t u : List ProbeEvent) :
    exchanges (t ++ u) = exchanges t ++ exchanges u := List.filterMap_append

/-- The arguments that reach `externalMethod`. -/
def ConnectCall.arguments (call : ConnectCall) : ExternalMethodArguments where
  scalarInput := call.input
  scalarOutputCount := call.outCount

end Probe

/-- A call of the probe, with the requests that the kext made for it. -/
structure ServedCall where
  exchange : Probe.Exchange
  trace : List DeviceEvent

inductive Serve (platform : Platform) : System → ServedCall → System → Prop where
  | refused {s : System} {call : Probe.ConnectCall} {reply : Probe.ConnectReply}
      (hret : reply.ret ≠ kIOReturnSuccess) : Serve platform s ⟨⟨call, reply⟩, []⟩ s
  | delivered {s s' : System} {call : Probe.ConnectCall} {reply : Probe.ConnectReply}
      {t : List DeviceEvent} {r : Reply}
      (h : Step platform s ⟨.externalMethod call.selector call.arguments, t, .returned r⟩ s')
      (hret : reply.ret = r.ret)
      (hout : r.ret = kIOReturnSuccess →
        reply.outCount = call.outCount ∧ reply.out = r.scalarOutput) :
      Serve platform s ⟨⟨call, reply⟩, t⟩ s'

/-- Everything that was asked of the device for the calls `served`, in order. -/
def servedTrace (served : List ServedCall) : List DeviceEvent := served.flatMap ServedCall.trace

/--
`t` is a run of the probe against the instance in `s`: its calls were served in order, with the
requests in `served`, and left `s'`.
-/
def Against (platform : Platform) (t : List Probe.ProbeEvent) (s : System)
    (served : List ServedCall) (s' : System) : Prop :=
  served.map ServedCall.exchange = Probe.exchanges t ∧ Path (Serve platform) s served s'

end MarvellW8897
