import MarvellW8897.Properties.Controller
import MarvellW8897.Properties.UserClient
import MarvellW8897.Spec.Environment

/-!
# The lifecycle of the instance

What a run leaves outstanding, read off its trace, and the invariant that ties this to the fields
of the instance.

* `Outstanding` — the ledger of a trace; it adds up over `++`.
* `Inv` — an idle instance holds nothing, a started one holds exactly what its table says.
* `inv_run` — the invariant holds after every run.
* `lifecycle_balanced` — what is taken is given back, on every path.
* `barTable_sound` — the BAR table in every reachable state.
-/

namespace MarvellW8897

open Effect

variable {platform : Platform} {t u : List DeviceEvent} {c c' : Controller} {s s' : System}
  {calls : List CallRecord} {r : CallRecord}

/-! ## The ledger of a trace -/

/--
`n` references to the provider and `n` sessions on it are outstanding after `t`, and `held handle`
references to each map. A part of a trace may give back more than it took, so both are integers.
-/
structure Outstanding (t : List DeviceEvent) (n : Int) (held : Nat → Int) : Prop where
  retains : (retainCount t : Int) = releaseCount t + n
  opens : (openCount t : Int) = closeCount t + n
  unmapped : ∀ handle, (obtainedCount t handle : Int) = unmappedCount t handle + held handle
  released : ∀ handle, (obtainedCount t handle : Int) = releasedCount t handle + held handle

theorem Outstanding.append {n m : Int} {held held' : Nat → Int} (h : Outstanding t n held)
    (h' : Outstanding u m held') :
    Outstanding (t ++ u) (n + m) (fun handle => held handle + held' handle) where
  retains := by
    have h₁ := h.retains
    have h₂ := h'.retains
    simp only [retainCount, releaseCount, List.countP_append] at *
    omega
  opens := by
    have h₁ := h.opens
    have h₂ := h'.opens
    simp only [openCount, closeCount, List.countP_append] at *
    omega
  unmapped := by
    intro handle
    have h₁ := h.unmapped handle
    have h₂ := h'.unmapped handle
    rw [obtainedCount_append, unmappedCount_append]
    omega
  released := by
    intro handle
    have h₁ := h.released handle
    have h₂ := h'.released handle
    rw [obtainedCount_append, releasedCount_append]
    omega

/-- Requests about neither the provider nor a map leave nothing outstanding. -/
theorem Only.outstanding {kinds : List OpKind} (h : Only kinds t)
    (hp : .provider ∉ kinds := by decide)
    (hm : .map ∉ kinds := by decide) (hd : .drop ∉ kinds := by decide) :
    Outstanding t 0 (fun _ => 0) := by
  obtain ⟨h₁, h₂, h₃, h₄⟩ := h.providerCounts_eq_zero hp
  refine ⟨by rw [h₁, h₂]; rfl, by rw [h₃, h₄]; rfl, ?_, ?_⟩
  · intro handle
    rw [h.obtainedCount_eq_zero hm, h.unmappedCount_eq_zero hd]
    rfl
  · intro handle
    rw [h.obtainedCount_eq_zero hm, h.releasedCount_eq_zero hd]
    rfl

theorem outstanding_releaseTrace (bars : PciBarState) :
    Outstanding (PciBars.releaseTrace bars) 0 (fun handle => -PciBars.heldCount bars handle) := by
  have h := PciBars.only_releaseTrace bars
  obtain ⟨h₁, h₂, h₃, h₄⟩ := h.providerCounts_eq_zero
  refine ⟨by rw [h₁, h₂]; rfl, by rw [h₃, h₄]; rfl, ?_, ?_⟩
  · intro handle
    rw [h.obtainedCount_eq_zero, PciBars.unmappedCount_releaseTrace]
    omega
  · intro handle
    rw [h.obtainedCount_eq_zero, PciBars.releasedCount_releaseTrace]
    omega

theorem outstanding_openTrace : Outstanding Controller.openTrace 1 (fun _ => 0) :=
  ⟨by decide, by decide, fun _ => rfl, fun _ => rfl⟩

theorem outstanding_failTrace (bars : PciBarState) :
    Outstanding (Controller.failTrace bars) (-1)
      (fun handle => -PciBars.heldCount bars handle) := by
  have h : Outstanding [⟨.closeProvider, ()⟩, ⟨.setBusMasterEnable false, ()⟩,
    ⟨.setMemoryEnable false, ()⟩, ⟨.release, ()⟩] (-1) (fun _ => 0) :=
    ⟨by decide, by decide, fun _ => rfl, fun _ => rfl⟩
  simpa [Controller.failTrace] using (outstanding_releaseTrace bars).append h

theorem outstanding_stopTrace (bars : PciBarState) :
    Outstanding (Controller.stopTrace bars) (-1)
      (fun handle => -PciBars.heldCount bars handle) := by
  have h : Outstanding [⟨.setBusMasterEnable false, ()⟩, ⟨.setMemoryEnable false, ()⟩,
    ⟨.closeProvider, ()⟩, ⟨.release, ()⟩, ⟨.superStop, ()⟩] (-1) (fun _ => 0) :=
    ⟨by decide, by decide, fun _ => rfl, fun _ => rfl⟩
  simpa [Controller.stopTrace] using (outstanding_releaseTrace bars).append h

theorem PciBars.Built.outstanding {bars : PciBarState} (h : PciBars.Built t bars) :
    Outstanding t 0 (fun handle => PciBars.heldCount bars handle) := by
  obtain ⟨h₁, h₂, h₃, h₄⟩ := h.ops.providerCounts_eq_zero
  refine ⟨by rw [h₁, h₂]; rfl, by rw [h₃, h₄]; rfl, ?_, ?_⟩
  · intro handle
    rw [h.ops.unmappedCount_eq_zero, h.heldCount]
    omega
  · intro handle
    rw [h.ops.releasedCount_eq_zero, h.heldCount]
    omega

theorem PciBars.Undone.outstanding (h : PciBars.Undone t) : Outstanding t 0 (fun _ => 0) := by
  obtain ⟨h₁, h₂, h₃, h₄⟩ := h.ops.providerCounts_eq_zero
  refine ⟨by rw [h₁, h₂]; rfl, by rw [h₃, h₄]; rfl, ?_, ?_⟩
  · intro handle
    rw [h.unmapped]
    omega
  · intro handle
    rw [h.released]
    omega

/-! ## The parts of a run -/

theorem Bringup.RunExit.only {host : ByteOrder} {bars : PciBarState} {ts : TransportState}
    {b : Bool × TransportState × BringupResult} (h : Bringup.RunExit host bars ts t b) :
    Only [.mmio] t := by
  cases h <;> simp [Only, DeviceOp.kind]

/-- What a user-client call leaves alone, and the only field of the transport state it may set. -/
structure SameDeviceState (c c' : Controller) : Prop where
  fPCIDevice : c'.fPCIDevice = c.fPCIDevice
  fDeviceOpen : c'.fDeviceOpen = c.fDeviceOpen
  fPciBarState : c'.fPciBarState = c.fPciBarState
  fTransportState : { c'.fTransportState with txRingWritePtr := 0 } =
    { c.fTransportState with txRingWritePtr := 0 }
  fBringupResult : c'.fBringupResult = c.fBringupResult

theorem CallExit.frame {selector : UInt32} {args : ExternalMethodArguments} {reply : Reply}
    (h : CallExit platform c selector args t (reply, c')) :
    SameDeviceState c c' ∧ Only [.mmio, .other] t := by
  cases h with
  | failed _ => exact ⟨⟨rfl, rfl, rfl, rfl, rfl⟩, by simp [Only]⟩
  | reported _ ht =>
    refine ⟨⟨rfl, rfl, rfl, rfl, rfl⟩, ?_⟩
    intro e he
    obtain ⟨index, hi⟩ := ht e he
    simp [hi, DeviceOp.kind]
  | read _ _ _ => exact ⟨⟨rfl, rfl, rfl, rfl, rfl⟩, by simp [Only, DeviceOp.kind]⟩
  | written _ _ => exact ⟨⟨rfl, rfl, rfl, rfl, rfl⟩, by simp [Only, DeviceOp.kind]⟩
  | flushed _ _ _ => exact ⟨⟨rfl, rfl, rfl, rfl, rfl⟩, by simp [Only, DeviceOp.kind]⟩

/-! ## The enable bits -/

/-- Neither enable bit was set on last. -/
def Disabled (t : List DeviceEvent) : Prop :=
  lastCommand busMasterSetting t ≠ some true ∧ lastCommand memorySetting t ≠ some true

/-- Requests that do not touch the enable bits change nothing. -/
theorem Disabled.append {kinds : List OpKind} (h : Disabled t) (hu : Only kinds u)
    (hk : .enable ∉ kinds := by decide) : Disabled (t ++ u) := by
  obtain ⟨hbm, hmem⟩ := hu.lastCommand_eq_none hk
  unfold Disabled
  rw [lastCommand_append, lastCommand_append, hbm, hmem]
  exact h

/-- Whatever happened before, both bits are off after commands that set them off. -/
theorem disabled_of_last (t : List DeviceEvent) (hbm : lastCommand busMasterSetting u = some false)
    (hmem : lastCommand memorySetting u = some false) : Disabled (t ++ u) := by
  unfold Disabled
  rw [lastCommand_append, lastCommand_append, hbm, hmem]
  exact ⟨by simp, by simp⟩

theorem disabled_failTrace (t : List DeviceEvent) (bars : PciBarState) :
    Disabled (t ++ Controller.failTrace bars) := by
  refine disabled_of_last t ?_ ?_ <;> rw [Controller.failTrace, lastCommand_append] <;> rfl

theorem disabled_stopTrace (t : List DeviceEvent) (bars : PciBarState) :
    Disabled (t ++ Controller.stopTrace bars) := by
  refine disabled_of_last t ?_ ?_ <;> rw [Controller.stopTrace, lastCommand_append] <;> rfl

/-! ## The invariant -/

/-- An idle instance: nothing is outstanding, and both enable bits are off again. -/
structure Idle (t : List DeviceEvent) (c : Controller) : Prop where
  fields : ∃ ts result, Controller.Fields c false {} ts result
  outstanding : Outstanding t 0 (fun _ => 0)
  disabled : Disabled t

/-- A started instance: it holds the provider, the session, and the maps of its table. -/
structure Running (t : List DeviceEvent) (c : Controller) : Prop where
  fields : ∃ bars ts result, Controller.Fields c true bars ts result
  consistent : PciBars.Consistent c.fPciBarState
  live : ∀ i map, (c.fPciBarState.resources i).map = some map → Live t map
  outstanding : Outstanding t 1 (fun handle => PciBars.heldCount c.fPciBarState handle)

/-- The invariant of a run. -/
def Inv (calls : List CallRecord) (s : System) : Prop :=
  if s.started then Running (traceOf calls) s.controller else Idle (traceOf calls) s.controller

theorem inv_boot : Inv [] boot :=
  ⟨⟨{}, {}, rfl, rfl, rfl, rfl, rfl⟩, ⟨rfl, rfl, fun _ => rfl, fun _ => rfl⟩, by decide, by decide⟩

theorem Live.append {map : IOMemoryMap} {kinds : List OpKind} (h : Live t map) (hu : Only kinds u)
    (hk : .drop ∉ kinds := by decide) : Live (t ++ u) map := by
  refine Held.append h ?_
  intro e he
  simp [unmapped_eq_none (hu.kind_ne he hk)]

/-- What was mapped while a table was built is live at its end. -/
theorem PciBars.Built.live {bars : PciBarState} (h : PciBars.Built t bars)
    {i : Fin kMaxResources} {map : IOMemoryMap} (hm : (bars.resources i).map = some map) :
    Live t map := by
  obtain ⟨e, he, ho⟩ := h.obtained i map hm
  refine held_of_mem he ho ?_
  intro d hd
  simp [unmapped_eq_none (h.ops.kind_ne hd)]

/-- `start` on an idle instance leaves it idle, or started. -/
theorem Idle.start {host : ByteOrder} {ok : Bool} (h : Idle t c)
    (hexit : Controller.StartExit host c u (ok, c')) :
    (ok = false ∧ Idle (t ++ u) c') ∨ (ok = true ∧ Running (t ++ u) c') := by
  obtain ⟨ts, result, hf⟩ := h.fields
  cases hexit with
  | superFailed =>
    have hu : Only [.service] [(⟨.superStart, false⟩ : DeviceEvent)] := by
      simp [Only, DeviceOp.kind]
    refine Or.inl ⟨rfl, h.fields, ?_, h.disabled.append hu⟩
    simpa using h.outstanding.append hu.outstanding
  | castFailed =>
    have hu : Only [.service]
        [(⟨.superStart, true⟩ : DeviceEvent), ⟨.dynamicCast, false⟩] := by
      simp [Only, DeviceOp.kind]
    refine Or.inl ⟨rfl, ⟨ts, result, rfl, hf.fDeviceOpen, hf.fPciBarState, hf.fTransportState,
      hf.fBringupResult⟩, ?_, h.disabled.append hu⟩
    simpa using h.outstanding.append hu.outstanding
  | openFailed =>
    have hu : Outstanding [(⟨.superStart, true⟩ : DeviceEvent), ⟨.dynamicCast, true⟩, ⟨.retain, ()⟩,
        ⟨.openProvider, false⟩, ⟨.release, ()⟩] 0 (fun _ => 0) :=
      ⟨by decide, by decide, fun _ => rfl, fun _ => rfl⟩
    have hk : Only [.service, .provider] [(⟨.superStart, true⟩ : DeviceEvent), ⟨.dynamicCast, true⟩,
        ⟨.retain, ()⟩, ⟨.openProvider, false⟩, ⟨.release, ()⟩] := by
      simp [Only, DeviceOp.kind]
    refine Or.inl ⟨rfl, ⟨ts, result, rfl, hf.fDeviceOpen, hf.fPciBarState, hf.fTransportState,
      hf.fBringupResult⟩, ?_, h.disabled.append hk⟩
    simpa using h.outstanding.append hu
  | @mapFailed tp _ _ bars _ hinspect hfields =>
    obtain ⟨rfl, hundone⟩ := Controller.inspect_undone hinspect
    refine Or.inl ⟨rfl, ⟨_, _, hfields⟩, ?_, ?_⟩
    -- `mapDeviceBars` has given its maps back, so the release of this exit finds an empty table
    · have hsum := h.outstanding.append ((outstanding_openTrace.append hundone.outstanding).append
        (outstanding_failTrace {}))
      simpa [PciBars.heldCount] using hsum
    · rw [← List.append_assoc]
      exact disabled_failTrace _ _
  | @bringupFailed tp tb _ _ bars _ _ _ hinspect hrun hfields =>
    have hbuilt := Controller.inspect_built hinspect
    refine Or.inl ⟨rfl, ⟨_, _, hfields⟩, ?_, ?_⟩
    · have hsum := h.outstanding.append (((outstanding_openTrace.append
        hbuilt.outstanding).append hrun.only.outstanding).append (outstanding_failTrace bars))
      simpa [Int.add_right_neg] using hsum
    · rw [← List.append_assoc]
      exact disabled_failTrace _ _
  | @started tp tb _ _ bars _ _ _ hinspect hrun hfields =>
    have hbuilt := Controller.inspect_built hinspect
    refine Or.inr ⟨rfl, ⟨_, _, _, hfields⟩, ?_, ?_, ?_⟩
    · rw [hfields.fPciBarState]
      exact hbuilt.consistent
    · intro i map hm
      rw [hfields.fPciBarState] at hm
      -- neither the bring-up nor the registration drops a map
      have hlive := Held.prepend (hbuilt.live hm) (t ++ Controller.openTrace)
      have hlive' := (Live.append hlive hrun.only).append Controller.only_registerService
      simpa using hlive'
    · rw [hfields.fPciBarState]
      have hsum := h.outstanding.append (((outstanding_openTrace.append
        hbuilt.outstanding).append hrun.only.outstanding).append
        Controller.only_registerService.outstanding)
      simpa using hsum

/-- `stop` leaves the instance idle. -/
theorem Running.stop (h : Running t c) (hr : Runs c.stop u c') : Idle (t ++ u) c' := by
  obtain ⟨bars, ts, result, hf⟩ := h.fields
  obtain ⟨rfl, hf'⟩ := Controller.runs_stop_started hf hr
  have hsum := h.outstanding.append (outstanding_stopTrace bars)
  rw [hf.fPciBarState] at hsum
  exact ⟨⟨_, _, hf'⟩, by simpa [Int.add_right_neg] using hsum, disabled_stopTrace t bars⟩

theorem Idle.stop (h : Idle t c) (hr : Runs c.stop u c') :
    u = [⟨.superStop, ()⟩] ∧ Idle (t ++ u) c' := by
  obtain ⟨ts, result, hf⟩ := h.fields
  obtain ⟨rfl, hf'⟩ := Controller.runs_stop_idle hf hr
  refine ⟨rfl, ⟨_, _, hf'⟩, ?_, h.disabled.append Controller.only_superStop⟩
  simpa using h.outstanding.append Controller.only_superStop.outstanding

/-- A user-client call leaves the instance as it is. -/
theorem Idle.call (h : Idle t c) (hs : SameDeviceState c c') (hu : Only [.mmio, .other] u) :
    Idle (t ++ u) c' := by
  obtain ⟨ts, result, hf⟩ := h.fields
  refine ⟨⟨_, _, hs.fPCIDevice.trans hf.fPCIDevice, hs.fDeviceOpen.trans hf.fDeviceOpen,
    hs.fPciBarState.trans hf.fPciBarState, rfl, rfl⟩, ?_, h.disabled.append hu⟩
  simpa using h.outstanding.append hu.outstanding

theorem Running.call (h : Running t c) (hs : SameDeviceState c c') (hu : Only [.mmio, .other] u) :
    Running (t ++ u) c' := by
  obtain ⟨bars, ts, result, hf⟩ := h.fields
  refine ⟨⟨_, _, _, hs.fPCIDevice.trans hf.fPCIDevice, hs.fDeviceOpen.trans hf.fDeviceOpen,
    rfl, rfl, rfl⟩, ?_, ?_, ?_⟩
  · rw [hs.fPciBarState]
    exact h.consistent
  · intro i map hm
    rw [hs.fPciBarState] at hm
    exact (h.live i map hm).append hu
  · rw [hs.fPciBarState]
    simpa using h.outstanding.append hu.outstanding

/-- Every call that IOKit allows keeps the invariant. -/
theorem inv_step (h : Inv calls s) (hstep : Step platform s r s') : Inv (calls ++ [r]) s' := by
  unfold Inv at *
  rw [traceOf_append, traceOf_singleton]
  cases hstep with
  | start idle hr =>
    rw [if_neg (by simp [idle])] at h
    rcases h.start (Controller.runs_start hr) with ⟨rfl, h'⟩ | ⟨rfl, h'⟩
    · exact h'
    · exact h'
  | stop hr =>
    dsimp only
    split at h
    · exact h.stop hr
    · exact (h.stop hr).2
  | externalMethod hr =>
    obtain ⟨hs, hu⟩ := (runs_call hr).frame
    dsimp only
    split at h
    · next hstarted =>
      rw [if_pos hstarted]
      exact h.call hs hu
    · next hstarted =>
      rw [if_neg hstarted]
      exact h.call hs hu

theorem inv_run (h : Run platform boot calls s) : Inv calls s :=
  h.invariant inv_boot (fun _ _ _ _ _ hI hs => inv_step hI hs)

theorem idle_of_run (h : Run platform boot calls s) (hs : s.started = false) :
    Idle (traceOf calls) s.controller := by
  have hi := inv_run h
  unfold Inv at hi
  rw [if_neg (by simp [hs])] at hi
  exact hi

theorem running_of_run (h : Run platform boot calls s) (hs : s.started = true) :
    Running (traceOf calls) s.controller := by
  have hi := inv_run h
  unfold Inv at hi
  rw [if_pos hs] at hi
  exact hi

/-- `stop` releases what a started instance holds, or has nothing to release; both end empty. -/
theorem stop_of_run (h : Run platform boot calls s) (hr : Runs s.controller.stop t c') :
    ((s.started = true ∧ ∃ bars, t = Controller.stopTrace bars) ∨
      (s.started = false ∧ t = [⟨.superStop, ()⟩])) ∧ Controller.Fields c' false {} {} {} := by
  cases hs : s.started with
  | true =>
    obtain ⟨bars, ts, result, hf⟩ := (running_of_run h hs).fields
    obtain ⟨ht, hf'⟩ := Controller.runs_stop_started hf hr
    exact ⟨Or.inl ⟨rfl, bars, ht⟩, hf'⟩
  | false =>
    obtain ⟨ts, result, hf⟩ := (idle_of_run h hs).fields
    obtain ⟨ht, hf'⟩ := Controller.runs_stop_idle hf hr
    exact ⟨Or.inr ⟨rfl, ht⟩, hf'⟩

/-! ## Balance -/

/--
An instance that is not started, after `t`: everything was given back, as often as it was taken (a
map that was obtained as a fresh reference, once), and what was enabled was disabled last.
-/
structure Settled (t : List DeviceEvent) (c : Controller) : Prop where
  retains : retainCount t = releaseCount t
  opens : openCount t = closeCount t
  unmapped : ∀ handle, unmappedCount t handle = obtainedCount t handle
  released : ∀ handle, releasedCount t handle = obtainedCount t handle
  fPCIDevice : c.fPCIDevice = false
  fDeviceOpen : c.fDeviceOpen = false
  busMaster : (∃ e ∈ t, busMasterSetting e = some true) →
    lastCommand busMasterSetting t = some false
  memory : (∃ e ∈ t, memorySetting e = some true) → lastCommand memorySetting t = some false

/-- A started instance, after `t`: one retain, one open, and one reference for each held map. -/
structure Holding (t : List DeviceEvent) (c : Controller) : Prop where
  retains : retainCount t = releaseCount t + 1
  opens : openCount t = closeCount t + 1
  unmapped : ∀ handle, obtainedCount t handle =
    unmappedCount t handle + PciBars.heldCount c.fPciBarState handle
  released : ∀ handle, obtainedCount t handle =
    releasedCount t handle + PciBars.heldCount c.fPciBarState handle

/-- A setting that was made, and is not on last, is off last. -/
theorem last_false {f : DeviceEvent → Option Bool} (h : lastCommand f t ≠ some true)
    (he : ∃ e ∈ t, f e = some true) : lastCommand f t = some false := by
  obtain ⟨e, hmem, hset⟩ := he
  obtain ⟨b, hb⟩ := exists_lastCommand hmem hset
  cases b with
  | false => exact hb
  | true => exact absurd hb h

theorem Idle.settled (h : Idle t c) : Settled t c := by
  obtain ⟨ts, result, hf⟩ := h.fields
  obtain ⟨h₁, h₂, h₃, h₄⟩ := h.outstanding
  refine ⟨by omega, by omega, ?_, ?_, hf.fPCIDevice, hf.fDeviceOpen, last_false h.disabled.1,
    last_false h.disabled.2⟩
  · intro handle
    have hh := h₃ handle
    omega
  · intro handle
    have hh := h₄ handle
    omega

theorem Running.holding (h : Running t c) : Holding t c := by
  obtain ⟨h₁, h₂, h₃, h₄⟩ := h.outstanding
  refine ⟨by omega, by omega, ?_, ?_⟩
  · intro handle
    have hh := h₃ handle
    omega
  · intro handle
    have hh := h₄ handle
    omega

/--
After every run, an instance that is not started has settled and its `stop` asks nothing of the
device; one that is started holds exactly what its table says.
-/
theorem lifecycle_balanced (h : Run platform boot calls s) :
    (s.started = false → Settled (traceOf calls) s.controller ∧
      ∀ t c', Runs s.controller.stop t c' → t = [⟨.superStop, ()⟩]) ∧
    (s.started = true → Holding (traceOf calls) s.controller) := by
  refine ⟨?_, ?_⟩
  · intro hs
    have hidle := idle_of_run h hs
    exact ⟨hidle.settled, fun _ _ hr => (hidle.stop hr).1⟩
  · intro hs
    exact (running_of_run h hs).holding

theorem lifecycle_balanced_start_stop :
    let r := play littleEndianPlatform device8897.environment [] boot [.start, .stop]
    Settled (traceOf r.1) r.2.controller ∧ obtainedCount (traceOf r.1) 1 = 1 :=
  ⟨((lifecycle_balanced (run_play [] boot [.start, .stop])).1 rfl).1, rfl⟩

/-! ## The BAR table -/

/-- The BAR table as the claims of its fields say it is, `t` being what was asked so far. -/
structure PciBars.Sound (t : List DeviceEvent) (state : PciBarState) : Prop where
  resourceCount_le : state.resourceCount.toNat ≤ kMaxResources
  slot : ∀ b, (state.bars b).mappedResource = kInvalidResourceIndex ∨
    ∃ i : Fin kMaxResources, (state.bars b).mappedResource = UInt32.ofNat i.val ∧
      i.val < state.resourceCount.toNat ∧
      (∃ map, (state.resources i).map = some map ∧ Live t map) ∧
      (state.bars b).mappedPtr = (state.resources i).mappedPtr ∧
      (state.bars b).length = (state.resources i).length
  injective : ∀ b b', (state.bars b).mappedResource ≠ kInvalidResourceIndex →
    (state.bars b).mappedResource = (state.bars b').mappedResource → b = b'
  claimed_iff : ∀ i : Fin kMaxResources, (state.resources i).claimed = true ↔
    ∃ b, (state.bars b).mappedResource = UInt32.ofNat i.val
  eligible : ∀ b, (state.bars b).mappedResource ≠ kInvalidResourceIndex →
    (state.bars b).present = true ∧ (state.bars b).isMemory = true ∧
      (state.bars b).isContinuation = false

theorem PciBars.Consistent.sound {state : PciBarState} (h : PciBars.Consistent state)
    (hlive : ∀ i map, (state.resources i).map = some map → Live t map) :
    PciBars.Sound t state where
  resourceCount_le := h.resourceCount_le
  slot := by
    intro b
    rcases h.slot b with hn | ⟨i, map, hi, hm, hptr, hlen, -⟩
    · exact Or.inl hn
    · obtain ⟨hlt, hptr', hlen', -⟩ := h.resource i map hm
      exact Or.inr ⟨i, hi, hlt, ⟨map, hm, hlive i map hm⟩, hptr.trans hptr'.symm,
        hlen.trans hlen'.symm⟩
  injective := by
    intro b b' hb he
    rcases h.slot b with hn | ⟨i, -, hi, -⟩
    · exact absurd hn hb
    · exact h.injective b b' i hi (he.symm.trans hi)
  claimed_iff := h.claimed_iff
  eligible := by
    intro b hb
    rcases h.slot b with hn | ⟨-, -, -, -, -, -, hel⟩
    · exact absurd hn hb
    · simpa [BarInfo.eligible, and_assoc] using hel

/-- In a consistent table the V2 record needs no request at all. -/
theorem PciBars.Consistent.getBarInfoV2 {state : PciBarState} (h : PciBars.Consistent state)
    {barIndex : UInt32} {out : Option (List UInt64)}
    (hr : Runs (PciBars.getBarInfoV2 state barIndex) t out) : t = [] := by
  rcases runs_getBarInfoV2 hr with ⟨b, address, -, -, ⟨-, ht, -⟩ | ⟨hne, haddr⟩⟩ | ⟨-, ht, -⟩
  · exact ht
  · rcases h.slot b with hn | ⟨i, -, hi, -⟩
    · exact absurd hn hne
    · rcases runs_resourcePhysicalAddress haddr with ⟨-, -, ht, -⟩ | ⟨hge, -⟩
      · exact ht
      -- past the end: an index that a slot names is below `kMaxResources`
      · rw [show (state.bars b).mappedResource = UInt32.ofNat i.val from hi] at hge
        have hlt := i.isLt
        rw [UInt32.toNat_ofNat_of_lt' (lt_trans hlt (by decide))] at hge
        omega
  · exact ht

theorem consistent_of_run (h : Run platform boot calls s) :
    PciBars.Consistent s.controller.fPciBarState ∧
      ∀ i map, (s.controller.fPciBarState.resources i).map = some map →
        Live (traceOf calls) map := by
  cases hs : s.started with
  | true =>
    have hr := running_of_run h hs
    exact ⟨hr.consistent, hr.live⟩
  | false =>
    obtain ⟨ts, result, hf⟩ := (idle_of_run h hs).fields
    rw [hf.fPciBarState]
    exact ⟨PciBars.consistent_reset {}, fun i map hm => by simp at hm⟩

/-- The table is sound after every run, so `getBarInfoV2` never reads past the resources. -/
theorem barTable_sound (h : Run platform boot calls s) :
    PciBars.Sound (traceOf calls) s.controller.fPciBarState ∧
      ∀ barIndex t out, Runs (PciBars.getBarInfoV2 s.controller.fPciBarState barIndex) t out →
        ∀ e ∈ t, ∀ index, e.op ≠ .readPastResources index := by
  obtain ⟨hc, hlive⟩ := consistent_of_run h
  refine ⟨hc.sound hlive, ?_⟩
  intro barIndex t out hr e he
  rw [hc.getBarInfoV2 hr] at he
  simp at he

theorem barTable_sound_started :
    let r := play littleEndianPlatform device8897.environment [] boot [.start]
    PciBars.Sound (traceOf r.1) r.2.controller.fPciBarState ∧
      (r.2.controller.fPciBarState.bars 2).mappedResource = 1 :=
  ⟨(barTable_sound (run_play [] boot [.start])).1, rfl⟩

end MarvellW8897
