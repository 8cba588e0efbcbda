import MarvellW8897.Spec.Environment

/-!
# A register as a stream of values

A device register that the code polls is a stream: the loads of a run are answered by the values of
the stream, one after the other.

* `feed` — the environment that answers loads from a stream.
* `pollTrace` — loads of one register, with a pause between two of them.
* `answered_pollTrace` — against `feed`, those loads gave the values of the stream in order.
-/

namespace MarvellW8897

open Effect

/-! ## Answers from a stream -/

def DeviceOp.isLoad : DeviceOp → Bool
  | .load _ _ => true
  | _ => false

/-- How many loads a trace makes. -/
def loadCount (t : List DeviceEvent) : Nat := t.countP (fun e => e.op.isLoad)

@[simp] theorem loadCount_append (t u : List DeviceEvent) :
    loadCount (t ++ u) = loadCount t + loadCount u := List.countP_append

/-- The environment that answers the loads from `raw`, in order, and the rest as `rest` does. -/
def feed (raw : Nat → UInt32) (rest : Environment) : Environment := fun past op =>
  match op with
  | .load _ _ => raw (loadCount past)
  | op => rest past op

/-! ## Polling -/

section PollTrace

variable (reg : MmioPtr) (offset delayUsec : UInt32)

/-- `IODelay(delayUsec)`, unless the delay is zero. -/
def pause : List DeviceEvent := if delayUsec = 0 then [] else [⟨.delay delayUsec, ()⟩]

/-- One load of the register for each answer in `raws`, with a pause between two of them. -/
def pollTrace (raws : List UInt32) : List DeviceEvent :=
  (pause delayUsec).intercalate (raws.map fun raw => [⟨.load reg offset, raw⟩])

theorem pollTrace_cons (raw : UInt32) {raws : List UInt32} (h : raws ≠ []) :
    pollTrace reg offset delayUsec (raw :: raws) =
      ⟨.load reg offset, raw⟩ :: (pause delayUsec ++ pollTrace reg offset delayUsec raws) := by
  have hmap : raws.map (fun raw => [(⟨.load reg offset, raw⟩ : DeviceEvent)]) ≠ [] := by
    simpa using h
  rw [pollTrace, List.map_cons, List.intercalate_cons_of_ne_nil hmap]
  simp [pollTrace]

/-- The pause stands after a load exactly if another load follows. -/
theorem pollTrace_step (raw : UInt32) {raws : List UInt32} {more : Bool}
    (h : more = true ↔ raws ≠ []) :
    pollTrace reg offset delayUsec (raw :: raws) = ⟨.load reg offset, raw⟩ ::
      ((if more then pause delayUsec else []) ++ pollTrace reg offset delayUsec raws) := by
  cases raws with
  | nil =>
    rw [if_neg (by simp [h])]
    rfl
  | cons _ _ => rw [if_pos (h.mpr (by simp)), pollTrace_cons _ _ _ raw (by simp)]

theorem loadCount_pause : loadCount (pause delayUsec) = 0 := by
  unfold pause
  split <;> rfl

theorem loadCount_pollTrace (raws : List UInt32) :
    loadCount (pollTrace reg offset delayUsec raws) = raws.length := by
  induction raws with
  | nil => rfl
  | cons raw raws ih =>
    cases raws with
    | nil => rfl
    | cons next raws =>
      rw [pollTrace_cons _ _ _ raw (by simp), ← List.singleton_append, loadCount_append,
        loadCount_append, loadCount_pause, ih, List.length_cons]
      show 1 + (0 + (next :: raws).length) = (next :: raws).length + 1
      omega

/-- Against a stream, the loads gave its values in order. -/
theorem answered_pollTrace {raw : Nat → UInt32} {rest : Environment} {past : List DeviceEvent}
    {raws : List UInt32}
    (h : Effect.Answered (feed raw rest) past (pollTrace reg offset delayUsec raws)) :
    raws = (List.range raws.length).map (fun i => raw (loadCount past + i)) := by
  induction raws generalizing past with
  | nil => rfl
  | cons first raws ih =>
    have hfirst : first = raw (loadCount past) := by
      cases raws with
      | nil => exact h.1
      | cons _ _ =>
        rw [pollTrace_cons _ _ _ first (by simp)] at h
        exact h.1
    have hrest : raws = (List.range raws.length).map (fun i => raw (loadCount past + 1 + i)) := by
      cases raws with
      | nil => rfl
      | cons _ _ =>
        rw [pollTrace_cons _ _ _ first (by simp)] at h
        have htail := ih (answered_append.mp h.2).2
        rwa [loadCount_append, loadCount_append, loadCount_pause, Nat.add_zero] at htail
    rw [List.length_cons, List.range_succ_eq_map, List.map_cons, List.map_map, Nat.add_zero,
      ← hfirst]
    refine congrArg (List.cons first) (hrest.trans ?_)
    refine List.map_congr_left ?_
    intro i _
    show raw (loadCount past + 1 + i) = raw (loadCount past + (i + 1))
    congr 1
    omega

end PollTrace

end MarvellW8897
