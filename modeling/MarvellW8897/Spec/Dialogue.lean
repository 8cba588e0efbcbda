import MarvellW8897.Probe.Served
import MarvellW8897.Spec.Environment

/-!
# Dialogues

The run that a probe makes against an instance and its device, computed call by call.

* `serve_call`, `path_serveAll` — every instance can serve every list of calls.
* `against_exec` — so every program of the probe has a run against every instance.
-/

namespace MarvellW8897

open Effect

variable (platform : Platform) (env : Environment)

/-- One call, served by the instance in `s` after the requests `past`. -/
def serveCall (past : List DeviceEvent) (s : System) (call : Probe.ConnectCall) :
    ServedCall × System :=
  let r := (externalMethod platform s.controller call.selector call.arguments).exec env past
  (⟨⟨call, ⟨r.2.1.ret, call.outCount, r.2.1.scalarOutput⟩⟩, r.1⟩, ⟨r.2.2, s.started⟩)

def serveAll (past : List DeviceEvent) (s : System) :
    List Probe.ConnectCall → List ServedCall × System
  | [] => ([], s)
  | call :: calls =>
    let r := serveCall platform env past s call
    let rest := serveAll (past ++ r.1.trace) r.2 calls
    (r.1 :: rest.1, rest.2)

/-- The instance in `s` as the environment of the probe; its service is there, and opens. -/
def respond (past : List DeviceEvent) (s : System) (asked : List Probe.ProbeEvent) :
    (op : Probe.ProbeOp) → op.Resp
  | .connectCall call =>
    let served := serveAll platform env past s ((Probe.exchanges asked).map Probe.Exchange.call)
    (serveCall platform env (past ++ servedTrace served.1) served.2 call).1.exchange.reply
  | .getMatchingService => true
  | .serviceOpen => kIOReturnSuccess
  | .readPast _ _ => (0 : UInt64)
  | .undefined => (0 : UInt32)
  | .objectRelease | .serviceClose | .print _ => ()

variable {platform env}

theorem serve_call (past : List DeviceEvent) (s : System) (call : Probe.ConnectCall) :
    Serve platform s (serveCall platform env past s call).1
      (serveCall platform env past s call).2 :=
  Serve.delivered (Step.externalMethod (Program.runs_exec env past
    (externalMethod platform s.controller call.selector call.arguments))) rfl
    (fun _ => ⟨rfl, rfl⟩)

theorem path_serveAll (past : List DeviceEvent) (s : System) (calls : List Probe.ConnectCall) :
    Path (Serve platform) s (serveAll platform env past s calls).1
      (serveAll platform env past s calls).2 := by
  induction calls generalizing past s with
  | nil => exact Path.nil
  | cons call calls ih => exact Path.cons (serve_call past s call) (ih _ _)

theorem serveAll_snoc (past : List DeviceEvent) (s : System) (calls : List Probe.ConnectCall)
    (call : Probe.ConnectCall) :
    (serveAll platform env past s (calls ++ [call])).1 =
      (serveAll platform env past s calls).1 ++
        [(serveCall platform env (past ++ servedTrace (serveAll platform env past s calls).1)
          (serveAll platform env past s calls).2 call).1] := by
  induction calls generalizing past s with
  | nil => simp [serveAll, servedTrace]
  | cons c calls ih =>
    show _ :: (serveAll platform env _ _ (calls ++ [call])).1 = _
    rw [ih]
    simp [serveAll, servedTrace]

/-- What was asked so far was answered as `serveAll` serves it. -/
def Answered (platform : Platform) (env : Environment) (past : List DeviceEvent) (s : System)
    (asked : List Probe.ProbeEvent) : Prop :=
  (serveAll platform env past s ((Probe.exchanges asked).map Probe.Exchange.call)).1.map
    ServedCall.exchange = Probe.exchanges asked

theorem Answered.snoc {past : List DeviceEvent} {s : System} {asked : List Probe.ProbeEvent}
    (h : Answered platform env past s asked) (op : Probe.ProbeOp) :
    Answered platform env past s (asked ++ [⟨op, respond platform env past s asked op⟩]) := by
  unfold Answered at *
  rw [Probe.exchanges_append]
  cases op with
  | connectCall call =>
    show List.map _ (serveAll platform env past s (List.map _ (_ ++ [_]))).1 = _
    rw [List.map_append, List.map_singleton, serveAll_snoc, List.map_append, h]
    rfl
  | _ =>
    show List.map _ (serveAll platform env past s (List.map _ (_ ++ []))).1 = _ ++ []
    rw [List.append_nil]
    exact h

/-- Every program of the probe has a run against every instance. -/
theorem against_exec {α : Type} (past : List DeviceEvent) (s : System) (p : Probe.ProbeM α) :
    let t := (p.exec (respond platform env past s) []).1
    let served := serveAll platform env past s ((Probe.exchanges t).map Probe.Exchange.call)
    Against platform t s served.1 served.2 := by
  have key : ∀ asked, Answered platform env past s asked →
      Answered platform env past s (asked ++ (p.exec (respond platform env past s) asked).1) := by
    induction p with
    | pure a =>
      intro asked h
      simpa [Program.exec] using h
    | request op k ih =>
      intro asked h
      have hnext := ih (respond platform env past s asked op) _ (h.snoc op)
      simpa [Program.exec] using hnext
  have hall := key [] rfl
  exact ⟨hall, path_serveAll past s _⟩

end MarvellW8897
