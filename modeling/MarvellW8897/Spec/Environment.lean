import MarvellW8897.Kext.System

/-!
# Environments

An environment that answers every request, and the run that a list of calls makes against it.

* `run_play` — every environment has a run for every list of calls.
* `Device` — the answers of a device that is described by a few tables.
-/

namespace MarvellW8897

open Effect

/-- Answers to all requests, in view of the requests before. -/
abbrev Environment := List DeviceEvent → (op : DeviceOp) → op.Resp

variable (platform : Platform) (env : Environment)

/-- One call against `env`, after the requests `past`; `none` if IOKit would not make it. -/
def System.perform (past : List DeviceEvent) (s : System) : Call → Option (CallRecord × System)
  | .start =>
    if s.started then none
    else
      let r := (s.controller.start platform.host).exec env past
      some (⟨.start, r.1, .started r.2.1⟩, ⟨r.2.2, r.2.1⟩)
  | .stop =>
    let r := s.controller.stop.exec env past
    some (⟨.stop, r.1, .stopped⟩, ⟨r.2, false⟩)
  | .externalMethod selector args =>
    let r := (MarvellW8897.externalMethod platform s.controller selector args).exec env past
    some (⟨.externalMethod selector args, r.1, .returned r.2.1⟩, ⟨r.2.2, s.started⟩)

/-- The calls in order, without those that IOKit would not make. -/
def play (past : List DeviceEvent) (s : System) : List Call → List CallRecord × System
  | [] => ([], s)
  | call :: calls =>
    match s.perform platform env past call with
    | none => play past s calls
    | some (record, s') =>
      let rest := play (past ++ record.trace) s' calls
      (record :: rest.1, rest.2)

variable {platform env}

theorem step_of_perform {past : List DeviceEvent} {s s' : System} {call : Call}
    {record : CallRecord} (h : s.perform platform env past call = some (record, s')) :
    Step platform s record s' := by
  cases call with
  | start =>
    dsimp only [System.perform] at h
    cases hs : s.started with
    | true =>
      rw [if_pos hs] at h
      simp at h
    | false =>
      rw [if_neg (by simp [hs])] at h
      obtain ⟨rfl, rfl⟩ := Prod.mk.inj (Option.some.inj h)
      exact Step.start hs (Program.runs_exec env past (s.controller.start _))
  | stop =>
    obtain ⟨rfl, rfl⟩ := Prod.mk.inj (Option.some.inj h)
    exact Step.stop (Program.runs_exec env past s.controller.stop)
  | externalMethod selector args =>
    obtain ⟨rfl, rfl⟩ := Prod.mk.inj (Option.some.inj h)
    exact Step.externalMethod (Program.runs_exec env past
      (externalMethod platform s.controller selector args))

/-- Every environment has a run for every list of calls. -/
theorem run_play (past : List DeviceEvent) (s : System) (calls : List Call) :
    Run platform s (play platform env past s calls).1 (play platform env past s calls).2 := by
  induction calls generalizing past s with
  | nil => exact Path.nil
  | cons call calls ih =>
    unfold play
    split
    · exact ih past s
    · next record s' hp => exact Path.cons (step_of_perform hp) (ih _ s')

theorem answered_of_perform {past : List DeviceEvent} {s s' : System} {call : Call}
    {record : CallRecord} (h : s.perform platform env past call = some (record, s')) :
    Answered env past record.trace := by
  cases call with
  | start =>
    dsimp only [System.perform] at h
    split at h
    · simp at h
    · rw [← (Prod.mk.inj (Option.some.inj h)).1]
      exact Program.answered_exec env past _
  | stop =>
    rw [← (Prod.mk.inj (Option.some.inj h)).1]
    exact Program.answered_exec env past _
  | externalMethod selector args =>
    rw [← (Prod.mk.inj (Option.some.inj h)).1]
    exact Program.answered_exec env past _

/-- All that is asked in such a run has the answers of the environment. -/
theorem answered_play (past : List DeviceEvent) (s : System) (calls : List Call) :
    Answered env past (traceOf (play platform env past s calls).1) := by
  induction calls generalizing past s with
  | nil => exact trivial
  | cons call calls ih =>
    unfold play
    split
    · exact ih past s
    · next record s' hp => exact answered_append.mpr ⟨answered_of_perform hp, ih _ s'⟩

theorem call_of_perform {past : List DeviceEvent} {s s' : System} {call : Call}
    {record : CallRecord} (h : s.perform platform env past call = some (record, s')) :
    record.call = call := by
  cases call with
  | start =>
    dsimp only [System.perform] at h
    split at h
    · simp at h
    · rw [← (Prod.mk.inj (Option.some.inj h)).1]
  | stop => rw [← (Prod.mk.inj (Option.some.inj h)).1]
  | externalMethod selector args => rw [← (Prod.mk.inj (Option.some.inj h)).1]

/-- Only the given calls are made. -/
theorem call_mem_of_play {past : List DeviceEvent} {s : System} {calls : List Call}
    {record : CallRecord} (h : record ∈ (play platform env past s calls).1) :
    record.call ∈ calls := by
  induction calls generalizing past s with
  | nil => simp [play] at h
  | cons call calls ih =>
    unfold play at h
    split at h
    · exact List.mem_cons_of_mem call (ih h)
    · next first s' hp =>
      rcases List.mem_cons.mp h with rfl | h
      · rw [call_of_perform hp]
        exact List.mem_cons_self
      · exact List.mem_cons_of_mem call (ih h)

/-! ## A device described by tables -/

/-- What a device and its provider answer, the same every time. -/
structure Device where
  opens : Bool := true
  vendorId : UInt16
  deviceId : UInt16
  /-- The six BAR dwords. -/
  bars : List UInt32
  /-- The memory resources; `none` is one that cannot be mapped. -/
  memory : List (Option IOMemoryMap)
  register : UInt32 → UInt32 := fun _ => 0

def Device.environment (device : Device) : Environment := fun _ op =>
  match op with
  | .superStart => true
  | .dynamicCast => true
  | .openProvider => device.opens
  | .configRead8 _ => 0
  | .configRead16 offset =>
    if offset = kIOPCIConfigVendorID then device.vendorId
    else if offset = kIOPCIConfigDeviceID then device.deviceId
    else 0
  | .configRead32 offset =>
    device.bars.getD ((offset.toNat - kIOPCIConfigBaseAddress0.toNat) / 4) 0
  | .getDeviceMemoryCount => UInt32.ofNat device.memory.length
  | .mapDeviceMemoryWithIndex index => device.memory.getD index.toNat none
  | .load _ offset => device.register offset
  | .readPastResources _ => (0 : UInt64)
  | .superStop | .retain | .release | .closeProvider => ()
  | .setMemoryEnable _ | .setBusMasterEnable _ => ()
  | .unmap _ | .releaseMap _ | .store _ _ _ | .delay _ | .registerService => ()

/-- A little-endian host, and a superclass that refuses with `kIOReturnBadArgument`. -/
def littleEndianPlatform : Platform where
  host := .little
  refuse := fun counts args => if counts.Match args then none else some kIOReturnBadArgument
  refuse_error := by
    intro counts args r h
    split at h
    · simp at h
    · rw [← Option.some.inj h]
      decide
  refuse_none := by
    intro counts args
    split
    · next h => simp [h]
    · next h => simp [h]

/-- The arguments of a register read. -/
def readArguments (bar offset : UInt64) : ExternalMethodArguments where
  scalarInput := [bar, offset]
  scalarOutputCount := 1

/-- An 88W8897 whose two 64-bit BARs are both mapped. -/
def device8897 : Device where
  vendorId := kVendorIdMarvell88W8897
  deviceId := kDeviceIdMarvell88W8897
  bars := [0xF0000004, 0, 0xF0100004, 0, 0, 0]
  memory := [
    some { handle := 1, virtualAddress := 0x1000000, length := 0x10000
           physicalAddress := 0xF0000000 },
    some { handle := 2, virtualAddress := 0x2000000, length := 0x10000
           physicalAddress := 0xF0100000 }]
  register := fun offset => offset + 1

/-- The run of `mapDeviceBars` on a device for which it succeeds. -/
theorem runs_mapDeviceBars_exec {device : Device}
    (h : ((PciBars.mapDeviceBars true {}).exec device.environment []).2.1 = true) :
    Runs (PciBars.mapDeviceBars true {})
      ((PciBars.mapDeviceBars true {}).exec device.environment []).1
      (true, ((PciBars.mapDeviceBars true {}).exec device.environment []).2.2) := by
  have hrun := Program.runs_exec device.environment [] (PciBars.mapDeviceBars true {})
  rwa [← Prod.eta ((PciBars.mapDeviceBars true {}).exec device.environment []).2, h] at hrun

/-- The table that `mapDeviceBars` builds for it. -/
def table8897 : PciBarState :=
  ((PciBars.mapDeviceBars true {}).exec device8897.environment []).2.2

theorem runs_table8897 : Runs (PciBars.mapDeviceBars true {})
    ((PciBars.mapDeviceBars true {}).exec device8897.environment []).1 (true, table8897) :=
  runs_mapDeviceBars_exec (by decide +kernel)

end MarvellW8897
