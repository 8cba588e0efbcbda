import MarvellW8897.Properties.Lifecycle

/-!
# MMIO over whole runs

* `mmio_safe` — every load and store hits a live mapping, inside its bounds.
* `mmio_conservative` — which calls make which loads and stores, and what is reported.
-/

namespace MarvellW8897

open Effect

variable {platform : Platform} {t u : List DeviceEvent} {c c' : Controller} {s s' : System}
  {calls : List CallRecord} {r : CallRecord}

/-! ## Safe accesses -/

/-- The register that a load or store goes to. -/
def DeviceOp.target : DeviceOp → Option (MmioPtr × UInt32)
  | .load reg offset | .store reg offset _ => some (reg, offset)
  | _ => none

/--
An event that is safe after `past`: if it is a load or store, it goes to a map that was obtained in
`past` and not unmapped since, to an offset that is aligned and fits.
-/
def SafeAccess (past : List DeviceEvent) (e : DeviceEvent) : Prop :=
  ∀ reg offset, e.op.target = some (reg, offset) →
    ∃ map, Live past map ∧ reg = map.pointer ∧
      4 ∣ offset.toNat ∧ offset.toNat + 4 ≤ map.length.toNat

theorem target_eq_none {e : DeviceEvent} (h : e.op.kind ≠ .mmio) : e.op.target = none := by
  obtain ⟨op, resp⟩ := e
  cases op <;> simp_all [DeviceOp.target, DeviceOp.kind]

theorem Only.safe {kinds : List OpKind} (h : Only kinds u)
    (hk : .mmio ∉ kinds := by decide) : Always SafeAccess t u := by
  refine always_of_forall ?_
  intro e he v reg offset htarget
  rw [target_eq_none (h.kind_ne he hk)] at htarget
  simp at htarget

/-- What a consistent table grants is part of a map that its resources hold. -/
theorem PciBars.Consistent.access {state : PciBarState} (h : PciBars.Consistent state)
    {barIndex offset : UInt32} {w : Window MmioPtr} (hw : PciBars.Access state barIndex offset w) :
    ∃ i map, (state.resources i).map = some map ∧ w.base = map.pointer ∧
      4 ∣ offset.toNat ∧ offset.toNat + 4 ≤ map.length.toNat := by
  obtain ⟨hwin, halign, hend⟩ := hw
  obtain ⟨b, -, -, hres, -, rfl⟩ := PciBars.window_eq_some.mp hwin
  rcases h.slot b with hn | ⟨i, map, -, hm, hptr, hlen, -⟩
  · exact absurd hn hres
  · refine ⟨i, map, hm, hptr, halign, ?_⟩
    rw [← hlen]
    exact hend

/-- Accesses that a table grants are safe as long as its maps are live. -/
theorem safe_of_access {state : PciBarState} {kinds : List OpKind}
    (h : PciBars.Consistent state)
    (hlive : ∀ i map, (state.resources i).map = some map → Live t map)
    (hu : Only kinds u)
    (haccess : ∀ e ∈ u, ∀ reg offset, e.op.target = some (reg, offset) →
      ∃ barIndex w, PciBars.Access state barIndex offset w ∧ reg = w.base)
    (hk : .drop ∉ kinds := by decide) : Always SafeAccess t u := by
  rintro v e w rfl reg offset htarget
  obtain ⟨barIndex, win, hwin, rfl⟩ := haccess e (by simp) reg offset htarget
  obtain ⟨i, map, hm, hbase, halign, hend⟩ := h.access hwin
  -- what was asked before `e` drops no map either, so the map is still live at `e`
  have hv : Only kinds v := fun d hd => hu d (by simp [hd])
  exact ⟨map, (hlive i map hm).append hv hk, hbase, halign, hend⟩

/-! ## The calls of a run -/

/-- The two loads of a bring-up go through the window of BAR 0. -/
theorem Bringup.RunExit.access {host : ByteOrder} {bars : PciBarState} {ts : TransportState}
    {b : Bool × TransportState × BringupResult} (h : Bringup.RunExit host bars ts t b) :
    ∀ e ∈ t, ∀ reg offset, e.op.target = some (reg, offset) →
      ∃ barIndex w, PciBars.Access bars barIndex offset w ∧ reg = w.base := by
  cases h with
  | noProfile _ => simp
  | rejected _ _ _ _ => simp
  | @completed profile w rawStatus rawReady _ reached =>
    intro e he reg offset htarget
    simp only [List.mem_cons, List.not_mem_nil, or_false] at he
    rcases he with rfl | rfl
    · obtain ⟨rfl, rfl⟩ := Prod.mk.inj (Option.some.inj htarget)
      exact ⟨_, w, reached _ (by simp [Bringup.sanityRegisters]), rfl⟩
    · obtain ⟨rfl, rfl⟩ := Prod.mk.inj (Option.some.inj htarget)
      exact ⟨_, w, reached _ (by simp [Bringup.sanityRegisters]), rfl⟩

/-- The accesses of a call go through the window of the BAR it names. -/
theorem CallExit.access {selector : UInt32} {args : ExternalMethodArguments}
    {reply : Reply × Controller} (h : CallExit platform c selector args t reply) :
    ∀ e ∈ t, ∀ reg offset, e.op.target = some (reg, offset) →
      ∃ barIndex w, PciBars.Access c.fPciBarState barIndex offset w ∧ reg = w.base := by
  cases h with
  | failed _ => simp
  | reported _ ht =>
    intro e he reg offset htarget
    obtain ⟨index, hi⟩ := ht e he
    rw [hi] at htarget
    simp [DeviceOp.target] at htarget
  | read raw _ hw =>
    intro e he reg offset htarget
    rw [List.mem_singleton] at he
    subst he
    obtain ⟨rfl, rfl⟩ := Prod.mk.inj (Option.some.inj htarget)
    exact ⟨_, _, hw, rfl⟩
  | written _ hw =>
    intro e he reg offset htarget
    rw [List.mem_singleton] at he
    subst he
    obtain ⟨rfl, rfl⟩ := Prod.mk.inj (Option.some.inj htarget)
    exact ⟨_, _, hw, rfl⟩
  | flushed raw _ hw =>
    intro e he reg offset htarget
    simp only [List.mem_cons, List.not_mem_nil, or_false] at he
    rcases he with rfl | rfl
    · obtain ⟨rfl, rfl⟩ := Prod.mk.inj (Option.some.inj htarget)
      exact ⟨_, _, hw, rfl⟩
    · obtain ⟨rfl, rfl⟩ := Prod.mk.inj (Option.some.inj htarget)
      exact ⟨_, _, hw, rfl⟩

/-- `start` uses only the windows of the table it has just built. -/
theorem safe_start {host : ByteOrder} {ok : Bool}
    (h : Controller.StartExit host c u (ok, c')) : Always SafeAccess t u := by
  rcases h.parts with ⟨-, hu⟩ | ⟨-, tp, tb, v, d, bars, ts, result, rfl, -, hbuilt, hrun, -⟩
  · exact hu.safe
  · have hopen : Only [.service, .provider] Controller.openTrace := by
      simp [Only, Controller.openTrace, DeviceOp.kind]
    refine always_append (always_append (always_append hopen.safe hbuilt.ops.safe) ?_)
      Controller.only_registerService.safe
    -- the maps of the table are live as soon as the bring-up begins
    refine safe_of_access hbuilt.consistent ?_ hrun.only hrun.access
    intro i map hm
    rw [← List.append_assoc]
    exact Held.prepend (hbuilt.live hm) _

/-- The events of one call are safe after a run that led to the state of the call. -/
theorem safe_step (h : Run platform boot calls s) (hstep : Step platform s r s') :
    Always SafeAccess (traceOf calls) r.trace := by
  cases hstep with
  | start idle hr => exact safe_start (Controller.runs_start hr)
  | stop hr =>
    obtain ⟨⟨-, bars, rfl⟩ | ⟨-, rfl⟩, -⟩ := stop_of_run h hr
    · exact (Controller.only_stopTrace bars).safe
    · exact Controller.only_superStop.safe
  | externalMethod hr =>
    obtain ⟨hc, hlive⟩ := consistent_of_run h
    exact safe_of_access hc hlive (runs_call hr).frame.2 (runs_call hr).access

theorem safe_run (h : Run platform boot calls s) : Always SafeAccess [] (traceOf calls) := by
  refine h.invariant (I := fun calls _ => Always SafeAccess [] (traceOf calls)) ?_ ?_
  · intro u e v he
    simp at he
  · intro calls s r s' hrun hsafe hstep
    rw [traceOf_append, traceOf_singleton]
    exact always_append hsafe (safe_step hrun hstep)

/-- A register that the table serves: its slot has a resource whose map can be read there. -/
structure Served (state : PciBarState) (barIndex offset : UInt32) : Prop where
  slot : ∃ b : Fin kMaxBars, barIndex.toNat = b.val ∧
    (state.bars b).present = true ∧ (state.bars b).isMemory = true ∧
    (state.bars b).isContinuation = false ∧
    (∃ i : Fin kMaxResources, (state.bars b).mappedResource = UInt32.ofNat i.val ∧
      (state.resources i).mappedPtr.address ≠ 0) ∧
    4 ∣ offset.toNat ∧ offset.toNat + 4 ≤ (state.bars b).length.toNat

theorem Served.access {state : PciBarState} {barIndex offset : UInt32}
    (h : Served state barIndex offset) (hc : PciBars.Consistent state) :
    ∃ w, PciBars.Access state barIndex offset w := by
  obtain ⟨b, hb, hpres, hmem, hcont, ⟨i, hi, hptr⟩, halign, hend⟩ := h.slot
  refine ⟨_, PciBars.window_eq_some.mpr ⟨b, hb, ?_, ?_, ?_, rfl⟩, halign, hend⟩
  · simp [BarInfo.eligible, hpres, hmem, hcont]
  · rw [hi]
    exact PciBars.resourceIndex_ne_invalid i
  · rcases hc.slot b with hn | ⟨j, map, hj, hm, hbase, -⟩
    · exact absurd hn (by rw [hi]; exact PciBars.resourceIndex_ne_invalid i)
    · obtain rfl : i = j := PciBars.Names.unique hi hj
      obtain ⟨-, hptr', -⟩ := hc.resource i map hm
      rw [hbase, ← hptr']
      exact hptr

/--
In every run each load and store goes to a live map, aligned and inside it; and on a started
instance every register that the table serves can be read and written.
-/
theorem mmio_safe (h : Run platform boot calls s) :
    Always SafeAccess [] (traceOf calls) ∧
    (s.started = true → ∀ barIndex offset, Served s.controller.fPciBarState barIndex offset →
      (∀ t out, Runs (s.controller.readReg32FromBar platform.host barIndex offset) t out →
        ∃ value, out = some value) ∧
      ∀ value t ok, Runs (s.controller.writeReg32ToBar platform.host barIndex offset value) t ok →
        ok = true) := by
  refine ⟨safe_run h, ?_⟩
  intro _ barIndex offset hserved
  have haccess := hserved.access (consistent_of_run h).1
  refine ⟨?_, ?_⟩
  · intro t out hr
    rcases Transport.runs_readReg32FromBar.mp hr with ⟨_, raw, _, _, rfl⟩ | ⟨hn, -⟩
    · exact ⟨_, rfl⟩
    · exact absurd haccess hn
  · intro value t ok hr
    rcases Transport.runs_writeReg32ToBar.mp hr with ⟨_, _, _, rfl⟩ | ⟨hn, -⟩
    · rfl
    · exact absurd haccess hn

theorem mmio_safe_read :
    let r := play littleEndianPlatform device8897.environment [] boot
      [.start, .externalMethod 2 (readArguments 0 0xC44)]
    (Always SafeAccess [] (traceOf r.1) ∧ (mmio (traceOf r.1)).length = 3) ∧
      Served r.2.controller.fPciBarState 0 0xC44 ∧
      ∀ t out, Runs (r.2.controller.readReg32FromBar .little 0 0xC44) t out →
        ∃ value, out = some value := by
  intro r
  obtain ⟨hsafe, hserves⟩ := mmio_safe (run_play [] boot
    [.start, .externalMethod 2 (readArguments 0 0xC44)] : Run littleEndianPlatform boot r.1 r.2)
  have hserved : Served r.2.controller.fPciBarState 0 0xC44 :=
    ⟨0, rfl, by decide +kernel, by decide +kernel, by decide +kernel,
      ⟨0, by decide +kernel, by decide +kernel⟩, by decide, by decide +kernel⟩
  exact ⟨⟨hsafe, rfl⟩, hserved, (hserves rfl 0 0xC44 hserved).1⟩

/-! ## Which calls make which accesses -/

/-- A `start` with the requests `t` read these IDs once it had opened the provider. -/
def ReadsIds (t : List DeviceEvent) (vendorId deviceId : UInt16) : Prop :=
  ∃ rest, t = Controller.openTrace ++ ⟨.configRead16 kIOPCIConfigVendorID, vendorId⟩ ::
    ⟨.configRead16 kIOPCIConfigDeviceID, deviceId⟩ :: rest

/--
The loads and stores that a call makes, `s` and `s'` being the states around it and `t` all its
requests. The profile of a `start` is the one for the IDs that it read, and it is kept.
-/
inductive CallMmio (platform : Platform) (s s' : System) (t : List DeviceEvent) :
    Call → Outcome → List DeviceEvent → Prop where
  | profiled {vendorId deviceId : UInt16} {profile : TransportPcieProfile} {w : Window MmioPtr}
      (rawStatus rawReady : UInt32) (hids : ReadsIds t vendorId deviceId)
      (hprofile : Transport.getPcieProfile (Controller.profileFor vendorId deviceId) = some profile)
      (hkept : Transport.getPcieProfile s'.controller.fTransportState = some profile)
      (hstatus : PciBars.Access s'.controller.fPciBarState 0 profile.firmwareStatusReg w)
      (hready : PciBars.Access s'.controller.fPciBarState 0 profile.driverReadyReg w) :
      CallMmio platform s s' t .start (.started true)
        [⟨.load w.base profile.firmwareStatusReg, rawStatus⟩,
          ⟨.load w.base profile.driverReadyReg, rawReady⟩]
  | unprofiled {vendorId deviceId : UInt16} (hids : ReadsIds t vendorId deviceId)
      (hprofile : Transport.getPcieProfile (Controller.profileFor vendorId deviceId) = none)
      (hkept : Transport.getPcieProfile s'.controller.fTransportState = none) :
      CallMmio platform s s' t .start (.started true) []
  | startFailed : CallMmio platform s s' t .start (.started false) []
  | stopped : CallMmio platform s s' t .stop .stopped []
  | read {args : ExternalMethodArguments} {reply : Reply} {w : Window MmioPtr} (raw : UInt32)
      (hret : reply.ret = kIOReturnSuccess)
      (hw : PciBars.Access s.controller.fPciBarState args.bar args.offset w) :
      CallMmio platform s s' t (.externalMethod 2 args) (.returned reply)
        [⟨.load w.base args.offset, raw⟩]
  | written {args : ExternalMethodArguments} {reply : Reply} {w : Window MmioPtr}
      (hret : reply.ret = kIOReturnSuccess)
      (hw : PciBars.Access s.controller.fPciBarState args.bar args.offset w) :
      CallMmio platform s s' t (.externalMethod 3 args) (.returned reply)
        [⟨.store w.base args.offset (osSwapHostToLittleInt32 platform.host args.value), ()⟩]
  | flushed {args : ExternalMethodArguments} {reply : Reply} {w : Window MmioPtr} (raw : UInt32)
      (hret : reply.ret = kIOReturnSuccess)
      (hw : PciBars.Access s.controller.fPciBarState args.bar args.offset w) :
      CallMmio platform s s' t (.externalMethod 6 args) (.returned reply)
        [⟨.store w.base args.offset (osSwapHostToLittleInt32 platform.host args.value), ()⟩,
          ⟨.load w.base args.offset, raw⟩]
  | passive {selector : UInt32} {args : ExternalMethodArguments} {reply : Reply}
      (h : reply.ret ≠ kIOReturnSuccess ∨ selector ∉ [2, 3, 6]) :
      CallMmio platform s s' t (.externalMethod selector args) (.returned reply) []

/-- `parts` are, call by call, the loads and stores of a run. -/
inductive MmioLog (platform : Platform) (s : System) :
    List CallRecord → System → List (List DeviceEvent) → Prop where
  | nil : MmioLog platform s [] s []
  | snoc {calls : List CallRecord} {s₁ s₂ : System} {r : CallRecord}
      {parts : List (List DeviceEvent)} {part : List DeviceEvent}
      (h : MmioLog platform s calls s₁ parts) (hstep : Step platform s₁ r s₂)
      (hpart : CallMmio platform s₁ s₂ r.trace r.call r.outcome part) :
      MmioLog platform s (calls ++ [r]) s₂ (parts ++ [part])

theorem mmio_eq_self (h : Only [.mmio] t) : mmio t = t := by
  rw [mmio, List.filter_eq_self]
  intro e he
  obtain ⟨op, resp⟩ := e
  have hk := h _ he
  cases op <;> simp_all [DeviceOp.isMmio, DeviceOp.kind]

theorem callMmio_start {ok : Bool}
    (h : Controller.StartExit platform.host s.controller t (ok, c')) :
    CallMmio platform s ⟨c', ok⟩ t .start (.started ok) (mmio t) := by
  rcases h.parts with
    ⟨rfl, ht⟩ | ⟨rfl, tp, tb, v, d, bars, ts, result, rfl, hinspect, hbuilt, hrun, hf⟩
  · rw [ht.mmio_eq_nil]
    exact CallMmio.startFailed
  · obtain ⟨rest, hrest⟩ := Controller.inspect_ids hinspect
    have hids : ReadsIds (Controller.openTrace ++ tp ++ tb ++ [⟨.registerService, ()⟩]) v d :=
      ⟨rest ++ tb ++ [⟨.registerService, ()⟩], by simp [hrest]⟩
    have hopen : mmio Controller.openTrace = [] := rfl
    have hend : mmio [(⟨.registerService, ()⟩ : DeviceEvent)] = [] := rfl
    rw [mmio_append, mmio_append, mmio_append, hopen, hend, hbuilt.ops.mmio_eq_nil,
      mmio_eq_self hrun.only, List.nil_append, List.nil_append, List.append_nil]
    cases hrun with
    | noProfile hprofile =>
      refine CallMmio.unprofiled hids hprofile ?_
      dsimp only
      rw [hf.fTransportState]
      exact hprofile
    | @completed profile w rawStatus rawReady hprofile reached =>
      refine CallMmio.profiled rawStatus rawReady hids hprofile ?_ ?_ ?_
      · dsimp only
        rw [hf.fTransportState]
        exact hprofile
      · dsimp only
        rw [hf.fPciBarState]
        exact reached _ (by simp [Bringup.sanityRegisters])
      · dsimp only
        rw [hf.fPciBarState]
        exact reached _ (by simp [Bringup.sanityRegisters])

theorem callMmio_call {selector : UInt32} {args : ExternalMethodArguments} {reply : Reply}
    (h : CallExit platform s.controller selector args t (reply, c')) :
    CallMmio platform s s' t (.externalMethod selector args) (.returned reply) (mmio t) := by
  cases h with
  | failed hret => exact CallMmio.passive (Or.inl hret)
  | reported hpassive ht =>
    have hu : Only [.other] t := by
      intro e he
      obtain ⟨index, hi⟩ := ht e he
      simp [hi, DeviceOp.kind]
    rw [hu.mmio_eq_nil]
    exact CallMmio.passive (Or.inr hpassive)
  | read raw hselector hw =>
    subst hselector
    exact CallMmio.read raw rfl hw
  | written hselector hw =>
    subst hselector
    exact CallMmio.written rfl hw
  | flushed raw hselector hw =>
    subst hselector
    exact CallMmio.flushed raw rfl hw

theorem callMmio_step (h : Run platform boot calls s) (hstep : Step platform s r s') :
    CallMmio platform s s' r.trace r.call r.outcome (mmio r.trace) := by
  cases hstep with
  | start idle hr => exact callMmio_start (Controller.runs_start hr)
  | stop hr =>
    obtain ⟨⟨-, bars, rfl⟩ | ⟨-, rfl⟩, -⟩ := stop_of_run h hr
    · dsimp only
      rw [(Controller.only_stopTrace bars).mmio_eq_nil]
      exact CallMmio.stopped
    · exact CallMmio.stopped
  | externalMethod hr => exact callMmio_call (runs_call hr)

theorem mmioLog_run (h : Run platform boot calls s) :
    MmioLog platform boot calls s (calls.map (fun r => mmio r.trace)) := by
  induction h with
  | nil => exact MmioLog.nil
  | snoc h hs ih =>
    rw [List.map_append]
    exact MmioLog.snoc ih hs (callMmio_step h hs)

/-! ## What is reported -/

/-- The outcomes that the bring-up can report. -/
def conservativeOutcomes : List (BringupStage × BringupFailureReason) :=
  [(.notStarted, .none), (.unsupported, .noTransportProfile),
    (.unsupported, .noGroundedResetSemantic), (.failed, .unsupportedBar0)]

/-- An instance that has not attempted a reset and does not take the firmware to be ready. -/
structure Conservative (c : Controller) : Prop where
  outcome : (c.fBringupResult.stage, c.fBringupResult.failureReason) ∈ conservativeOutcomes
  resetAttempted : c.fBringupResult.resetAttempted = false
  readyObserved : c.fBringupResult.readyObserved = false
  firmwareReady : c.fTransportState.firmwareReady = 0

theorem conservative_fields {device : Bool} {bars : PciBarState}
    (h : Controller.Fields c device bars {} {}) : Conservative c := by
  refine ⟨?_, ?_, ?_, ?_⟩
  · rw [h.fBringupResult]
    decide
  · rw [h.fBringupResult]
  · rw [h.fBringupResult]
  · rw [h.fTransportState]

theorem firmwareReady_profileFor (vendorId deviceId : UInt16) :
    (Controller.profileFor vendorId deviceId).firmwareReady = 0 := by
  unfold Controller.profileFor Transport.configurePcieProfile
  split <;> rfl

theorem conservative_bringup {host : ByteOrder} {device ok : Bool} {bars bars' : PciBarState}
    {ts : TransportState} {result : BringupResult} {vendorId deviceId : UInt16}
    (hrun : Bringup.RunExit host bars (Controller.profileFor vendorId deviceId) t (ok, ts, result))
    (h : Controller.Fields c device bars' ts result) : Conservative c := by
  have hfw := firmwareReady_profileFor vendorId deviceId
  cases hrun with
  | noProfile _ =>
    refine ⟨?_, ?_, ?_, ?_⟩ <;> simp [h.fBringupResult, h.fTransportState, hfw,
      conservativeOutcomes]
  | rejected _ _ _ _ =>
    refine ⟨?_, ?_, ?_, ?_⟩ <;> simp [h.fBringupResult, h.fTransportState, hfw,
      conservativeOutcomes, Bringup.recordRejection, Bringup.recordAccess, Bringup.rejectionReason,
      Bringup.kBringupBarIndex]
  | completed _ _ _ _ =>
    refine ⟨?_, ?_, ?_, ?_⟩ <;> simp [h.fBringupResult, h.fTransportState, conservativeOutcomes]

theorem Conservative.of_eq (h : Conservative c) (hts : c'.fTransportState = c.fTransportState)
    (hresult : c'.fBringupResult = c.fBringupResult) : Conservative c' := by
  obtain ⟨h₁, h₂, h₃, h₄⟩ := h
  exact ⟨by rw [hresult]; exact h₁, by rw [hresult]; exact h₂, by rw [hresult]; exact h₃,
    by rw [hts]; exact h₄⟩

theorem conservative_step (h : Run platform boot calls s) (hc : Conservative s.controller)
    (hstep : Step platform s r s') : Conservative s'.controller := by
  cases hstep with
  | start idle hr =>
    cases Controller.runs_start hr with
    | superFailed => exact hc
    | castFailed => exact hc.of_eq rfl rfl
    | openFailed => exact hc.of_eq rfl rfl
    | mapFailed _ hf => exact hc.of_eq hf.fTransportState hf.fBringupResult
    | bringupFailed _ hrun hf => exact conservative_bringup hrun hf
    | started _ hrun hf => exact conservative_bringup hrun hf
  | stop hr => exact conservative_fields (stop_of_run h hr).2
  | externalMethod hr =>
    have hs := (runs_call hr).frame.1
    obtain ⟨h₁, h₂, h₃, h₄⟩ := hc
    refine ⟨by rw [hs.fBringupResult]; exact h₁, by rw [hs.fBringupResult]; exact h₂,
      by rw [hs.fBringupResult]; exact h₃, ?_⟩
    have hts := congrArg TransportState.firmwareReady hs.fTransportState
    exact hts.trans h₄

theorem conservative_run (h : Run platform boot calls s) : Conservative s.controller := by
  refine h.invariant (I := fun _ s => Conservative s.controller) ?_ ?_
  · exact conservative_fields ⟨rfl, rfl, rfl, rfl, rfl⟩
  · exact fun _ _ _ _ hrun hc hstep => conservative_step hrun hc hstep

/--
The loads and stores of a run are, in order, those that `CallMmio` gives for each call; and the
exported records never report a reset, a ready observation, a ready firmware, or another outcome.
-/
theorem mmio_conservative (h : Run platform boot calls s) :
    (∃ parts, mmio (traceOf calls) = parts.flatten ∧ MmioLog platform boot calls s parts) ∧
    s.controller.getTransportState[5]? = some 0 ∧
    s.controller.getBringupResult[10]? = some 0 ∧
    s.controller.getBringupResult[11]? = some 0 ∧
    ∃ stage reason, (stage, reason) ∈ conservativeOutcomes ∧
      s.controller.getBringupResult[0]? = some stage.toUInt64 ∧
      s.controller.getBringupResult[1]? = some reason.toUInt64 := by
  refine ⟨⟨_, ?_, mmioLog_run h⟩, ?_, ?_, ?_, _, _, (conservative_run h).outcome, rfl, rfl⟩
  · rw [traceOf, mmio, List.filter_flatMap]
    rfl
  · change some s.controller.fTransportState.firmwareReady.toUInt64 = some 0
    rw [(conservative_run h).firmwareReady]
    rfl
  · change some s.controller.fBringupResult.resetAttempted.toUInt64 = some 0
    rw [(conservative_run h).resetAttempted]
    rfl
  · change some s.controller.fBringupResult.readyObserved.toUInt64 = some 0
    rw [(conservative_run h).readyObserved]
    rfl

theorem mmio_conservative_start :
    let r := play littleEndianPlatform device8897.environment [] boot [.start]
    (∃ parts, MmioLog littleEndianPlatform boot r.1 r.2 parts ∧ parts.flatten.map Event.op =
      [.load ⟨0x1000000, some 1⟩ Transport.pcie8897Profile.firmwareStatusReg,
        .load ⟨0x1000000, some 1⟩ Transport.pcie8897Profile.driverReadyReg]) ∧
      r.2.controller.getBringupResult[0]? = some 8 ∧ r.2.controller.getBringupResult[1]? = some 7 ∧
      r.2.controller.getBringupResult[11]? = some 0 := by
  intro r
  obtain ⟨⟨parts, hparts, hlog⟩, -, -, hready, -⟩ := mmio_conservative
    (run_play [] boot [.start] : Run littleEndianPlatform boot r.1 r.2)
  refine ⟨⟨parts, hlog, ?_⟩, rfl, rfl, hready⟩
  rw [← hparts]
  decide +kernel

end MarvellW8897
