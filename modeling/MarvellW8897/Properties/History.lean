import MarvellW8897.Properties.TxWritePointer

/-!
# What an instance remembers

* `start_transfer` — `start` makes the same runs on every instance.
* `run_from_start` — a run can be cut off in front of a `start` that succeeded.
* `transport_of_run` — the exported transport record, read off the calls.
-/

namespace MarvellW8897

open Effect

variable {platform : Platform} {s s' : System} {calls before after : List CallRecord}
  {r : CallRecord} {t u : List DeviceEvent} {c c' d : Controller} {host : ByteOrder} {ok : Bool}

/-! ## start on another instance -/

namespace Controller

/-- An open instance with the identity `i`, the command and status of `e`, and the table `bars`. -/
def surveyed (c i e : Controller) (bars : PciBarState) : Controller :=
  { i with
    fPCIDevice := true, fDeviceOpen := true, fPciBarState := bars
    fTransportState := c.fTransportState, fBringupResult := c.fBringupResult
    fCommand := e.fCommand, fStatus := e.fStatus }

/-- `start` on an open provider: up to the bring-up it looks at no field of the instance. -/
theorem runs_startOpened_iff {r : Bool × Controller} (hdevice : c.fPCIDevice = true)
    (hopen : c.fDeviceOpen = true) : Runs (startOpened host c) t r ↔
      ∃ t₁ i t₂ e t₃ mapped bars t₄, t = t₁ ++ (t₂ ++ (t₃ ++ t₄)) ∧
        Runs (readIdentity {}) t₁ i ∧ Runs (enableDevice {}) t₂ e ∧
        Runs (PciBars.mapDeviceBars true {}) t₃ (mapped, bars) ∧
        Runs (if !mapped then failStart (surveyed c i e bars)
          else startMapped host (surveyed c i e bars)) t₄ r := by
  obtain ⟨device, isOpen, bars₀, ts₀, result₀, _, _, _, _, _, _, _, _, _, _⟩ := c
  obtain rfl : device = true := hdevice
  obtain rfl : isOpen = true := hopen
  constructor
  · intro h
    obtain ⟨t₁, c₁, t', rfl, hid, h'⟩ := runs_bind.mp h
    obtain ⟨t₂, c₂, t'', rfl, hen, h''⟩ := runs_bind.mp h'
    obtain ⟨t₃, ⟨mapped, bars⟩, t₄, rfl, hmap, hrest⟩ := runs_bind.mp h''
    rw [readIdentity_eq] at hid
    obtain ⟨u₁, i, v₁, rfl, hi, he⟩ := runs_bind.mp hid
    obtain ⟨rfl, rfl⟩ := runs_pure.mp he
    rw [enableDevice_eq] at hen
    obtain ⟨u₂, e, v₂, rfl, hed, he⟩ := runs_bind.mp hen
    obtain ⟨rfl, rfl⟩ := runs_pure.mp he
    exact ⟨u₁, i, u₂, e, t₃, mapped, bars, t₄, by simp, hi, hed, hmap, hrest⟩
  · rintro ⟨t₁, i, t₂, e, t₃, mapped, bars, t₄, rfl, hi, hed, hmap, hrest⟩
    -- the identity is filled in first, then the two registers that `enableDevice` reads again
    refine runs_bind.mpr ⟨t₁, ?_, t₂ ++ (t₃ ++ t₄), rfl, ?_, ?_⟩
    · exact { i with
        fPCIDevice := true, fDeviceOpen := true, fPciBarState := bars₀
        fTransportState := ts₀, fBringupResult := result₀ }
    · rw [readIdentity_eq]
      exact hi.map _
    · refine runs_bind.mpr ⟨t₂, ?_, t₃ ++ t₄, rfl, ?_, ?_⟩
      · exact { i with
          fPCIDevice := true, fDeviceOpen := true, fPciBarState := bars₀
          fTransportState := ts₀, fBringupResult := result₀
          fCommand := e.fCommand, fStatus := e.fStatus }
      · rw [enableDevice_eq]
        exact hed.map _
      · exact runs_bind.mpr ⟨t₃, (mapped, bars), t₄, rfl, hmap, hrest⟩

/-- The failing exit of `start` makes its one run on every open instance. -/
theorem exists_runs_failStart (hopen : c.fDeviceOpen = true) :
    ∃ c', Runs (failStart c) (failTrace c.fPciBarState) (false, c') := by
  have hrun := Program.runs_exec device8897.environment [] (failStart c)
  obtain ⟨ht, hr, -⟩ := runs_failStart hopen hrun
  rw [ht, ← Prod.eta ((failStart c).exec device8897.environment []).2, hr] at hrun
  exact ⟨_, hrun⟩

/-- The transport state and the bring-up record are reset before they are looked at. -/
theorem startMapped_surveyed {c d i e : Controller} {bars : PciBarState} :
    startMapped host (surveyed c i e bars) = startMapped host (surveyed d i e bars) := rfl

/-- `start` on an open provider makes the same runs on every instance. -/
theorem startOpened_transfer (hc : c.fPCIDevice = true ∧ c.fDeviceOpen = true)
    (hd : d.fPCIDevice = true ∧ d.fDeviceOpen = true) (h : Runs (startOpened host c) t (ok, c')) :
    ∃ d', Runs (startOpened host d) t (ok, d') ∧ (ok = true → d' = c') := by
  obtain ⟨t₁, i, t₂, e, t₃, mapped, bars, t₄, rfl, hi, hed, hmap, hrest⟩ :=
    (runs_startOpened_iff hc.1 hc.2).mp h
  cases mapped with
  | false =>
    rw [if_pos (by simp)] at hrest
    obtain ⟨rfl, rfl, -⟩ := runs_failStart rfl hrest
    obtain ⟨d', hd'⟩ := exists_runs_failStart (c := surveyed d i e bars) rfl
    refine ⟨d', (runs_startOpened_iff hd.1 hd.2).mpr ?_, by simp⟩
    refine ⟨t₁, i, t₂, e, t₃, false, bars, _, rfl, hi, hed, hmap, ?_⟩
    rw [if_pos (by simp)]
    exact hd'
  | true =>
    rw [if_neg (by simp), startMapped_surveyed (d := d)] at hrest
    refine ⟨c', (runs_startOpened_iff hd.1 hd.2).mpr ?_, fun _ => rfl⟩
    refine ⟨t₁, i, t₂, e, t₃, true, bars, t₄, rfl, hi, hed, hmap, ?_⟩
    rw [if_neg (by simp)]
    exact hrest

/-- `start` makes the same runs on every instance, and one that succeeds ends in the same state. -/
theorem start_transfer (h : Runs (start host c) t (ok, c')) (d : Controller) :
    ∃ d', Runs (start host d) t (ok, d') ∧ (ok = true → d' = c') := by
  obtain ⟨started, t₁, rfl, h₁⟩ := runs_ask_bind.mp h
  cases started with
  | false =>
    obtain ⟨rfl, he⟩ := runs_pure.mp h₁
    obtain ⟨rfl, rfl⟩ := Prod.mk.inj he
    exact ⟨_, runs_ask_bind.mpr ⟨false, [], rfl, runs_pure.mpr ⟨rfl, rfl⟩⟩, by simp⟩
  | true =>
    obtain ⟨device, t₂, rfl, h₂⟩ := runs_ask_bind.mp h₁
    cases device with
    | false =>
      obtain ⟨rfl, he⟩ := runs_pure.mp h₂
      obtain ⟨rfl, rfl⟩ := Prod.mk.inj he
      refine ⟨{ d with fPCIDevice := false }, runs_ask_bind.mpr ⟨true, _, rfl, ?_⟩, by simp⟩
      exact runs_ask_bind.mpr ⟨false, [], rfl, runs_pure.mpr ⟨rfl, rfl⟩⟩
    | true =>
      obtain ⟨⟨⟩, t₃, rfl, h₃⟩ := runs_ask_bind.mp h₂
      obtain ⟨opened, t₄, rfl, h₄⟩ := runs_ask_bind.mp h₃
      cases opened with
      | false =>
        obtain ⟨⟨⟩, t₅, rfl, h₅⟩ := runs_ask_bind.mp h₄
        obtain ⟨rfl, he⟩ := runs_pure.mp h₅
        obtain ⟨rfl, rfl⟩ := Prod.mk.inj he
        refine ⟨{ d with fPCIDevice := false }, runs_ask_bind.mpr ⟨true, _, rfl, ?_⟩, by simp⟩
        refine runs_ask_bind.mpr ⟨true, _, rfl, ?_⟩
        exact runs_ask_bind.mpr ⟨(), _, rfl, runs_ask_bind.mpr ⟨false, _, rfl, runs_ask_bind.mpr
          ⟨(), [], rfl, runs_pure.mpr ⟨rfl, rfl⟩⟩⟩⟩
      | true =>
        obtain ⟨d', hd', he⟩ := startOpened_transfer
          (d := { d with fPCIDevice := true, fDeviceOpen := true }) ⟨rfl, rfl⟩ ⟨rfl, rfl⟩ h₄
        refine ⟨d', runs_ask_bind.mpr ⟨true, _, rfl, ?_⟩, he⟩
        refine runs_ask_bind.mpr ⟨true, _, rfl, ?_⟩
        exact runs_ask_bind.mpr ⟨(), _, rfl, runs_ask_bind.mpr ⟨true, _, rfl, hd'⟩⟩

end Controller

/-- A `start` that succeeds after any run at all could have been the first call. -/
theorem run_cut (h : Run platform s' (before ++ r :: after) s) (hr : r.outcome = .started true) :
    Run platform boot (r :: after) s := by
  obtain ⟨s₀, -, hrest⟩ := h.split
  obtain ⟨s₁, hstep, htail⟩ := hrest.of_cons
  cases hstep with
  | start _ hstart =>
    obtain rfl := Outcome.started.inj hr
    obtain ⟨d', hd', he⟩ := Controller.start_transfer hstart boot.controller
    rw [he rfl] at hd'
    exact Path.cons (Step.start rfl hd') htail
  | stop _ => simp at hr
  | externalMethod _ => simp at hr

/--
An instance that is used again behaves as one that was just created: its `start` can go exactly the
ways of a first `start`, and from a successful `start` on, the run is one of a fresh instance.
-/
theorem run_from_start (h : Run platform boot calls s) :
    (∀ t ok, (∃ c', Runs (s.controller.start platform.host) t (ok, c')) ↔
      ∃ c', Runs (Controller.start platform.host {}) t (ok, c')) ∧
    ∀ before r after, calls = before ++ r :: after → r.outcome = .started true →
      Run platform boot (r :: after) s := by
  refine ⟨?_, ?_⟩
  · intro t ok
    constructor
    · rintro ⟨c', hc⟩
      obtain ⟨d', hd, -⟩ := Controller.start_transfer hc {}
      exact ⟨d', hd⟩
    · rintro ⟨c', hc⟩
      obtain ⟨d', hd, -⟩ := Controller.start_transfer hc s.controller
      exact ⟨d', hd⟩
  · rintro before r after rfl hr
    exact run_cut h hr

/-- Started, stopped and started again: the second life is a first one. -/
theorem run_from_start_twice :
    let r := play littleEndianPlatform device8897.environment [] boot [.start, .stop, .start]
    ∃ last, r.1.drop 2 = [last] ∧ Run littleEndianPlatform boot [last] r.2 := by
  intro r
  have hrun : Run littleEndianPlatform boot r.1 r.2 := run_play [] boot [.start, .stop, .start]
  exact ⟨_, rfl, (run_from_start hrun).2 (r.1.take 2) _ [] rfl rfl⟩

/-! ## The transport record -/

/-- What a call leaves in `txRingWritePtr`, if it sets it: `stop` and a successful `start` reset. -/
def pointerSetting (r : CallRecord) : Option UInt32 :=
  match r.outcome with
  | .started true | .stopped => some 0
  | _ => recorded r

/-- Of the eight counters, only the write pointer is set. -/
def Transport.OnlyPointer (state : TransportState) (pointer : UInt32) : Prop :=
  state = { txRingWritePtr := pointer, pcieProfile := state.pcieProfile }

/-- The bring-up leaves the counters of the profile it was given. -/
theorem Transport.onlyPointer_runExit {bars : PciBarState} {ts : TransportState}
    {result : BringupResult} {v d : UInt16}
    (h : Bringup.RunExit host bars (Controller.profileFor v d) t (ok, ts, result)) :
    Transport.OnlyPointer ts 0 := by
  have hprofile : Transport.OnlyPointer (Controller.profileFor v d) 0 ∧
      Transport.OnlyPointer { Controller.profileFor v d with firmwareReady := 0 } 0 := by
    unfold Controller.profileFor Transport.configurePcieProfile
    split
    · exact ⟨rfl, rfl⟩
    · exact ⟨rfl, rfl⟩
  cases h with
  | noProfile _ => exact hprofile.1
  | rejected _ _ => exact hprofile.1
  | completed _ _ _ _ => exact hprofile.2

/-- No register can be reached before `start`, nor after `stop`. -/
theorem Idle.not_access {w : Window MmioPtr} {bar offset : UInt32} (h : Idle t c) :
    ¬ PciBars.Access c.fPciBarState bar offset w := by
  rintro ⟨hw, -⟩
  obtain ⟨ts, result, hf⟩ := h.fields
  rw [hf.fPciBarState] at hw
  obtain ⟨b, -, hel, -⟩ := PciBars.window_eq_some.mp hw
  simp [BarInfo.eligible] at hel

/-- The transport state as the calls describe it; on an idle instance the pointer is 0. -/
structure PointerInv (calls : List CallRecord) (s : System) : Prop where
  only : Transport.OnlyPointer s.controller.fTransportState (settingAfter pointerSetting 0 calls)
  idle : s.started = false → settingAfter pointerSetting 0 calls = 0

theorem pointerInv_start {c' : Controller} (h : PointerInv calls s) (hidle : s.started = false)
    (hexit : Controller.StartExit host s.controller t (ok, c')) :
    PointerInv (calls ++ [⟨.start, t, .started ok⟩]) ⟨c', ok⟩ := by
  have hzero := h.idle hidle
  cases ok with
  | true =>
    rcases hexit.parts with ⟨hf, -⟩ | ⟨-, tp, tb, v, d, bars, ts, result, -, -, -, hbringup, hf⟩
    · simp at hf
    · refine ⟨?_, by simp⟩
      rw [settingAfter_snoc, hf.fTransportState]
      exact Transport.onlyPointer_runExit hbringup
  | false =>
    have hsame : settingAfter pointerSetting 0 (calls ++ [⟨.start, t, .started false⟩]) =
        settingAfter pointerSetting 0 calls := settingAfter_snoc ..
    refine ⟨?_, fun _ => hsame.trans hzero⟩
    rw [hsame]
    cases hexit with
    | superFailed => exact h.only
    | castFailed => exact h.only
    | openFailed => exact h.only
    | mapFailed _ hf =>
      rw [hf.fTransportState]
      exact h.only
    | bringupFailed _ hbringup hf =>
      rw [hzero, hf.fTransportState]
      exact Transport.onlyPointer_runExit hbringup

theorem pointerInv_call {selector : UInt32} {args : ExternalMethodArguments} {reply : Reply}
    {c' : Controller} (hrun : Run platform boot calls s) (h : PointerInv calls s)
    (hexit : CallExit platform s.controller selector args t (reply, c')) :
    PointerInv (calls ++ [⟨.externalMethod selector args, t, .returned reply⟩])
      ⟨c', s.started⟩ := by
  have hset : settingAfter pointerSetting 0
      (calls ++ [⟨.externalMethod selector args, t, .returned reply⟩]) =
        (recorded ⟨.externalMethod selector args, t, .returned reply⟩).getD
          (settingAfter pointerSetting 0 calls) := settingAfter_snoc ..
  have hptr := txRingWritePtr_call hexit
  have hold : s.controller.fTransportState.txRingWritePtr =
      settingAfter pointerSetting 0 calls := by
    rw [h.only]
  rw [hold, ← hset] at hptr
  refine ⟨?_, fun hidle => ?_⟩
  · rw [← hptr]
    cases hexit with
    | flushed raw _ hw =>
      have honly := h.only
      unfold Transport.OnlyPointer at honly ⊢
      dsimp only
      rw [honly]
    | failed _ | reported _ _ | read _ _ _ | written _ _ =>
      rw [hold]
      exact h.only
  · rw [← hptr]
    cases hexit with
    | flushed raw _ hw => exact absurd hw (idle_of_run hrun hidle).not_access
    | failed _ | reported _ _ | read _ _ _ | written _ _ => exact hold.trans (h.idle hidle)

theorem pointerInv_stop {c' : Controller} (hrun : Run platform boot calls s)
    (hr : Runs s.controller.stop t c') :
    PointerInv (calls ++ [⟨.stop, t, .stopped⟩]) ⟨c', false⟩ := by
  have hzero : settingAfter pointerSetting 0 (calls ++ [⟨.stop, t, .stopped⟩]) = 0 :=
    settingAfter_snoc ..
  refine ⟨?_, fun _ => hzero⟩
  rw [hzero, (stop_of_run hrun hr).2.fTransportState]
  rfl

theorem pointerInv_run (h : Run platform boot calls s) : PointerInv calls s := by
  induction h with
  | nil => exact ⟨rfl, fun _ => rfl⟩
  | snoc hrun hstep ih =>
    cases hstep with
    | start hidle hr => exact pointerInv_start ih hidle (Controller.runs_start hr)
    | stop hr =>
      exact pointerInv_stop hrun hr
    | externalMethod hr => exact pointerInv_call hrun ih (runs_call hr)

/--
Whatever was called, and in whatever order: selector 5 answers the value of the last write with
flush that succeeded since the last `stop` or successful `start`, and seven zeros.
-/
theorem transport_of_run (h : Run platform boot calls s) {args : ExternalMethodArguments}
    {reply : Reply} (hr : Runs (externalMethod platform s.controller 5 args) t (reply, c'))
    (hret : reply.ret = kIOReturnSuccess) :
    reply.scalarOutput = [(settingAfter pointerSetting 0 calls).toUInt64, 0, 0, 0, 0, 0, 0, 0] := by
  have hhandler := runs_handler (i := 5) hr hret
  obtain ⟨-, he⟩ := runs_pure.mp hhandler
  obtain ⟨rfl, -⟩ := Prod.mk.inj he
  have honly := (pointerInv_run h).only
  change Transport.getTransportState s.controller.fTransportState = _
  rw [honly]
  rfl

/-- A write with flush that succeeds, and one that is refused. -/
theorem transport_of_run_flushed :
    let r := play littleEndianPlatform device8897.environment [] boot
      [.start, .externalMethod 6 (writeArguments 0 0xC44 5 1),
        .externalMethod 6 (writeArguments 1 0xC44 6 1)]
    let call := (externalMethod littleEndianPlatform r.2.controller 5
      { scalarInput := [], scalarOutputCount := 8 }).exec device8897.environment []
    call.2.1.scalarOutput =
        [(settingAfter pointerSetting 0 r.1).toUInt64, 0, 0, 0, 0, 0, 0, 0] ∧
      call.2.1.scalarOutput = [5, 0, 0, 0, 0, 0, 0, 0] := by
  intro r call
  have h := transport_of_run (run_play [] boot [.start,
    .externalMethod 6 (writeArguments 0 0xC44 5 1), .externalMethod 6 (writeArguments 1 0xC44 6 1)])
    (Program.runs_exec device8897.environment [] (externalMethod littleEndianPlatform r.2.controller
      5 { scalarInput := [], scalarOutputCount := 8 })) rfl
  refine ⟨h, ?_⟩
  decide +kernel

end MarvellW8897
