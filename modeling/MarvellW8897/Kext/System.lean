import MarvellW8897.Effect.Path
import MarvellW8897.Kext.UserClient

/-!
# Runs of the kext

One controller instance over time. IOKit calls `start` only while the instance is not started;
`stop` and the calls of a user client may come at any time. Each call is recorded with the requests
it made and what it returned.
-/

namespace MarvellW8897

open Effect

/-- The instance, and whether IOKit regards it as started. -/
structure System where
  controller : Controller := {}
  started : Bool := false

inductive Call where
  | start
  | stop
  | externalMethod (selector : UInt32) (args : ExternalMethodArguments)
deriving DecidableEq

inductive Outcome where
  | started (ok : Bool)
  | stopped
  | returned (reply : Reply)
deriving DecidableEq

/-- One call of a run: the call, the requests it made, and its outcome. -/
structure CallRecord where
  call : Call
  trace : List DeviceEvent
  outcome : Outcome

inductive Step (platform : Platform) : System → CallRecord → System → Prop where
  | start {s : System} {t : List DeviceEvent} {ok : Bool} {c : Controller}
      (idle : s.started = false) (h : Runs (s.controller.start platform.host) t (ok, c)) :
      Step platform s ⟨.start, t, .started ok⟩ ⟨c, ok⟩
  | stop {s : System} {t : List DeviceEvent} {c : Controller}
      (h : Runs s.controller.stop t c) :
      Step platform s ⟨.stop, t, .stopped⟩ ⟨c, false⟩
  | externalMethod {s : System} {selector : UInt32} {args : ExternalMethodArguments}
      {t : List DeviceEvent} {reply : Reply} {c : Controller}
      (h : Runs (externalMethod platform s.controller selector args) t (reply, c)) :
      Step platform s ⟨.externalMethod selector args, t, .returned reply⟩ ⟨c, s.started⟩

/-- Before the first call. -/
def boot : System := {}

/-- The calls `calls`, in order, lead from `s` to `s'`. -/
abbrev Run (platform : Platform) (s : System) (calls : List CallRecord) (s' : System) : Prop :=
  Path (Step platform) s calls s'

/-- Everything that was asked of the device in a run, in order. -/
def traceOf (calls : List CallRecord) : List DeviceEvent := calls.flatMap CallRecord.trace

@[simp] theorem traceOf_nil : traceOf [] = [] := rfl

@[simp] theorem traceOf_append (calls calls' : List CallRecord) :
    traceOf (calls ++ calls') = traceOf calls ++ traceOf calls' := List.flatMap_append

@[simp] theorem traceOf_singleton (r : CallRecord) : traceOf [r] = r.trace := by
  simp [traceOf]

end MarvellW8897
