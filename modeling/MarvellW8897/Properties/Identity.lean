import MarvellW8897.Properties.Lifecycle

/-!
# The exported identity

The identity fields are written by `start` alone, and nothing resets them: selector 0 goes on
answering after `stop`.

* `Identity.after` — what a reader of the trace knows about the device.
* `identity_of_run` — selector 0 answers that, in every run.
-/

namespace MarvellW8897

open Effect

variable {platform : Platform} {s s' : System} {calls : List CallRecord} {r : CallRecord}
  {t u : List DeviceEvent} {c c' : Controller} {host : ByteOrder}

/-! ## Reading the trace -/

/-- What selector 0 exports, as ten numbers of the width they are read with. -/
structure Identity where
  vendorId : UInt16 := 0
  deviceId : UInt16 := 0
  subVendorId : UInt16 := 0
  subSystemId : UInt16 := 0
  revisionId : UInt8 := 0
  classCode : UInt32 := 0
  command : UInt16 := 0
  status : UInt16 := 0
  interruptLine : UInt8 := 0
  interruptPin : UInt8 := 0

namespace Identity

/-- What is known about the device once it has answered `e`. -/
def observe (i : Identity) : DeviceEvent → Identity
  | ⟨.configRead16 offset, v⟩ =>
    if offset = kIOPCIConfigVendorID then { i with vendorId := v }
    else if offset = kIOPCIConfigDeviceID then { i with deviceId := v }
    else if offset = kIOPCIConfigSubSystemVendorID then { i with subVendorId := v }
    else if offset = kIOPCIConfigSubSystemID then { i with subSystemId := v }
    else if offset = kIOPCIConfigCommand then { i with command := v }
    else if offset = kIOPCIConfigStatus then { i with status := v }
    else i
  | ⟨.configRead8 offset, v⟩ =>
    if offset = kIOPCIConfigRevisionID then { i with revisionId := v }
    else if offset = kIOPCIConfigInterruptLine then { i with interruptLine := v }
    else if offset = kIOPCIConfigInterruptPin then { i with interruptPin := v }
    else i
  -- the class code is the upper three bytes of the dword that the revision starts
  | ⟨.configRead32 offset, v⟩ =>
    if offset = kIOPCIConfigRevisionID then { i with classCode := v >>> 8 } else i
  | _ => i

/-- What is known after `t`, if it was `i` before. -/
def after (i : Identity) (t : List DeviceEvent) : Identity := t.foldl observe i

theorem after_append (i : Identity) (t u : List DeviceEvent) :
    i.after (t ++ u) = (i.after t).after u := List.foldl_append

def fields (i : Identity) : List UInt64 :=
  [i.vendorId.toUInt64, i.deviceId.toUInt64, i.subVendorId.toUInt64, i.subSystemId.toUInt64,
    i.revisionId.toUInt64, i.classCode.toUInt64, i.command.toUInt64, i.status.toUInt64,
    i.interruptLine.toUInt64, i.interruptPin.toUInt64]

/-- The request has no answer that says anything about the identity. -/
def Silent (op : DeviceOp) : Prop := ∀ (i : Identity) (v : op.Resp), i.observe ⟨op, v⟩ = i

theorem after_eq {i : Identity} {t : List DeviceEvent} (h : ∀ e ∈ t, Silent e.op) :
    i.after t = i := by
  induction t with
  | nil => rfl
  | cons e t ih =>
    have he : i.observe e = i := h e List.mem_cons_self i e.resp
    change (i.observe e).after t = i
    rw [he]
    exact ih (fun d hd => h d (List.mem_cons_of_mem e hd))

theorem silent_of_kind {op : DeviceOp} (h : op.kind ≠ .config) : Silent op := by
  intro i v
  cases op <;> first | rfl | exact absurd rfl h

theorem silent_of_only {kinds : List OpKind} (h : Only kinds t)
    (hk : .config ∉ kinds := by decide) : ∀ e ∈ t, Silent e.op :=
  fun _ he => silent_of_kind (h.kind_ne he hk)

/-- The dwords of the BARs lie behind the dword with the class code. -/
theorem silent_bar (bar : Fin kMaxBars) : Silent (.configRead32 (PciBars.barRegOffset bar)) ∧
    Silent (.configRead32 (PciBars.barRegOffset bar + 4)) := by
  have hne : ∀ bar : Fin kMaxBars, PciBars.barRegOffset bar ≠ kIOPCIConfigRevisionID ∧
      PciBars.barRegOffset bar + 4 ≠ kIOPCIConfigRevisionID := by decide
  exact ⟨fun _ _ => if_neg (hne bar).1, fun _ _ => if_neg (hne bar).2⟩

theorem silent_decodeBars (state : PciBarState) : Uses Silent (PciBars.decodeBars state) := by
  refine Uses.foldlM fun s bar => Uses.bind (uses_ask (silent_bar bar).1) fun lo => ?_
  split
  · exact uses_pure _
  · dsimp only
    split
    · exact Uses.bind (uses_ask (silent_bar bar).2) (fun _ => uses_pure _)
    · exact uses_pure _

theorem silent_release (state : PciBarState) : Uses Silent (PciBars.release state) := by
  intro t bars h
  obtain ⟨rfl, -⟩ := PciBars.runs_release.mp h
  exact silent_of_only (PciBars.only_releaseTrace state)

theorem silent_mapDeviceBars (pciDevice : Bool) (state : PciBarState) :
    Uses Silent (PciBars.mapDeviceBars pciDevice state) := by
  refine Uses.ite (uses_pure _) (Uses.bind (silent_decodeBars _) fun decoded => ?_)
  refine Uses.bind (uses_ask fun _ _ => rfl) fun count => ?_
  refine Uses.bind (Uses.foldlM fun acc i => Uses.bind (uses_ask fun _ _ => rfl) fun map => ?_)
    fun mapped => ?_
  · cases map with
    | none => exact uses_pure _
    | some map => exact uses_pure _
  · refine Uses.ite (Uses.bind (silent_release _) fun _ => uses_pure _) ?_
    exact Uses.ite (Uses.bind (silent_release _) fun _ => uses_pure _) (uses_pure _)

end Identity

namespace Controller

/-- The identity fields of an instance. -/
def identity (c : Controller) : Identity where
  vendorId := c.fVendorId
  deviceId := c.fDeviceId
  subVendorId := c.fSubVendorId
  subSystemId := c.fSubSystemId
  revisionId := c.fRevisionId
  classCode := c.fClassCode
  command := c.fCommand
  status := c.fStatus
  interruptLine := c.fInterruptLine
  interruptPin := c.fInterruptPin

/-- Over the run `t` from `c` to `c'`, the identity fields follow the answers. -/
def Follows (c : Controller) (t : List DeviceEvent) (c' : Controller) : Prop :=
  c'.identity = c.identity.after t

theorem Follows.trans {c₁ : Controller} (h : Follows c t c₁) (h' : Follows c₁ u c') :
    Follows c (t ++ u) c' := by
  unfold Follows at *
  rw [Identity.after_append, ← h, h']

/-- A run that says nothing about the identity, and that keeps the fields. -/
theorem follows_of_silent (h : ∀ e ∈ t, Identity.Silent e.op) (hc : c'.identity = c.identity) :
    Follows c t c' := by
  unfold Follows
  rw [Identity.after_eq h, hc]

theorem follows_readIdentity (h : Runs (readIdentity c) t c') : Follows c t c' := by
  simp only [readIdentity, runs_ask_bind, runs_pure] at h
  obtain ⟨v, _, rfl, d, _, rfl, sv, _, rfl, ss, _, rfl, rev, _, rfl, cls, _, rfl, cmd, _, rfl,
    st, _, rfl, line, _, rfl, pin, _, rfl, rfl, rfl⟩ := h
  rfl

theorem follows_enableDevice (h : Runs (enableDevice c) t c') : Follows c t c' := by
  simp only [enableDevice, runs_ask_bind, runs_pure] at h
  obtain ⟨_, _, rfl, _, _, rfl, cmd, _, rfl, st, _, rfl, rfl, rfl⟩ := h
  rfl

theorem follows_failStart {r : Bool × Controller} (hopen : c.fDeviceOpen = true)
    (h : Runs (failStart c) t r) : Follows c t r.2 := by
  obtain ⟨ht, -, -⟩ := runs_failStart hopen h
  refine follows_of_silent ?_ ?_
  · rw [ht]
    exact Identity.silent_of_only (only_failTrace _)
  · obtain ⟨t₁, c₁, t₂, -, hrelease, h₂⟩ := runs_bind.mp h
    obtain ⟨-, rfl⟩ := runs_releaseMappedBars hrelease
    obtain ⟨t₃, c₃, t₄, -, hclose, h₄⟩ := runs_bind.mp h₂
    obtain ⟨-, rfl⟩ := runs_closeDevice (by exact hopen) hclose
    simp only [runs_ask_bind, runs_pure] at h₄
    obtain ⟨_, _, -, _, _, -, _, _, -, -, rfl⟩ := h₄
    rfl

theorem follows_startMapped {r : Bool × Controller} (hopen : c.fDeviceOpen = true)
    (h : Runs (startMapped host c) t r) : Follows c t r.2 := by
  obtain ⟨t₁, ⟨ok, ts, result⟩, t₂, rfl, hrun, hend⟩ := runs_bind.mp h
  have hsilent : ∀ e ∈ t₁, Identity.Silent e.op :=
    Identity.silent_of_only (Bringup.runs_run hrun).only
  refine Follows.trans
    (show Follows c t₁ { c with fTransportState := ts, fBringupResult := result } from
      follows_of_silent hsilent rfl) ?_
  dsimp only at hend
  cases ok with
  | false =>
    rw [if_pos (by simp)] at hend
    exact follows_failStart (by exact hopen) hend
  | true =>
    rw [if_neg (by simp)] at hend
    obtain ⟨_, t₃, rfl, hp⟩ := runs_ask_bind.mp hend
    obtain ⟨rfl, rfl⟩ := runs_pure.mp hp
    rfl

theorem follows_startOpened {r : Bool × Controller} (hopen : c.fDeviceOpen = true)
    (h : Runs (startOpened host c) t r) : Follows c t r.2 := by
  obtain ⟨t₁, c₁, t', rfl, hid, h'⟩ := runs_bind.mp h
  obtain ⟨t₂, c₂, t'', rfl, hen, h''⟩ := runs_bind.mp h'
  obtain ⟨t₃, ⟨mapped, bars⟩, t₄, rfl, hmap, hrest⟩ := runs_bind.mp h''
  have hopen₂ : c₂.fDeviceOpen = true := by
    rw [(runs_enableDevice hen).1.fDeviceOpen, (runs_readIdentity hid).1.fDeviceOpen, hopen]
  have hmap' : Follows c₂ t₃ { c₂ with fPciBarState := bars } :=
    follows_of_silent (Identity.silent_mapDeviceBars _ _ _ _ hmap) rfl
  refine (follows_readIdentity hid).trans ((follows_enableDevice hen).trans (hmap'.trans ?_))
  dsimp only at hrest
  cases mapped with
  | false =>
    rw [if_pos (by simp)] at hrest
    exact follows_failStart (by exact hopen₂) hrest
  | true =>
    rw [if_neg (by simp)] at hrest
    exact follows_startMapped (by exact hopen₂) hrest

theorem follows_start {r : Bool × Controller} (h : Runs (start host c) t r) :
    Follows c t r.2 := by
  obtain ⟨started, t₁, rfl, h₁⟩ := runs_ask_bind.mp h
  cases started with
  | false =>
    obtain ⟨rfl, rfl⟩ := runs_pure.mp h₁
    rfl
  | true =>
    obtain ⟨device, t₂, rfl, h₂⟩ := runs_ask_bind.mp h₁
    cases device with
    | false =>
      obtain ⟨rfl, rfl⟩ := runs_pure.mp h₂
      rfl
    | true =>
      obtain ⟨⟨⟩, t₃, rfl, h₃⟩ := runs_ask_bind.mp h₂
      obtain ⟨opened, t₄, rfl, h₄⟩ := runs_ask_bind.mp h₃
      cases opened with
      | false =>
        obtain ⟨⟨⟩, t₅, rfl, h₅⟩ := runs_ask_bind.mp h₄
        obtain ⟨rfl, rfl⟩ := runs_pure.mp h₅
        rfl
      | true =>
        have hopen : Follows c openTrace { c with fPCIDevice := true, fDeviceOpen := true } := rfl
        rw [if_neg (by simp)] at h₄
        exact hopen.trans (follows_startOpened rfl h₄)

theorem follows_stop (h : Runs (stop c) t c') (ht : Only [.drop, .provider, .enable, .service] t) :
    Follows c t c' := by
  refine follows_of_silent (Identity.silent_of_only ht) ?_
  obtain ⟨t₁, c₁, t₂, -, hrelease, h₂⟩ := runs_bind.mp h
  obtain ⟨-, rfl⟩ := runs_releaseMappedBars hrelease
  dsimp only at h₂
  split at h₂
  · obtain ⟨_, t₃, -, h₃⟩ := runs_ask_bind.mp h₂
    obtain ⟨_, t₄, -, h₄⟩ := runs_ask_bind.mp h₃
    obtain ⟨t₅, c₅, t₆, -, hclose, h₆⟩ := runs_bind.mp h₄
    obtain ⟨_, t₇, -, h₇⟩ := runs_ask_bind.mp h₆
    obtain ⟨_, -, rfl⟩ := runs_ask_map.mp h₇
    unfold closeDevice at hclose
    split at hclose
    · obtain ⟨_, -, rfl⟩ := runs_ask_map.mp hclose
      rfl
    · obtain ⟨-, rfl⟩ := runs_pure.mp hclose
      rfl
  · obtain ⟨t₃, c₃, t₄, -, hskip, hend⟩ := runs_bind.mp h₂
    obtain ⟨-, rfl⟩ := runs_pure.mp hskip
    obtain ⟨_, -, rfl⟩ := runs_ask_map.mp hend
    rfl

end Controller

/-! ## Runs -/

/-- No call of a user client touches the identity. -/
theorem follows_call {selector : UInt32} {args : ExternalMethodArguments} {reply : Reply}
    (h : CallExit platform c selector args t (reply, c')) : c.Follows t c' := by
  refine Controller.follows_of_silent (Identity.silent_of_only h.frame.2) ?_
  cases h <;> rfl

theorem follows_step {calls : List CallRecord} (hrun : Run platform boot calls s)
    (h : Step platform s r s') : s.controller.Follows r.trace s'.controller := by
  cases h with
  | start _ hr => exact Controller.follows_start hr
  | stop hr =>
    refine Controller.follows_stop hr ?_
    rcases (stop_of_run hrun hr).1 with ⟨-, bars, rfl⟩ | ⟨-, rfl⟩
    · exact Controller.only_stopTrace bars
    · exact Controller.only_superStop.mono
  | externalMethod hr => exact follows_call (runs_call hr)

theorem follows_run (h : Run platform boot calls s) :
    Controller.Follows {} (traceOf calls) s.controller := by
  induction h with
  | nil => rfl
  | snoc hrun hstep hfollows =>
    rw [traceOf_append, traceOf_singleton]
    exact hfollows.trans (follows_step hrun hstep)

/--
Whatever was called, and in whatever order: each answer of selector 0 is what the configuration
registers last answered the driver, and 0 for a register that it never read.
-/
theorem identity_of_run (h : Run platform boot calls s) {args : ExternalMethodArguments}
    {reply : Reply} (hr : Runs (externalMethod platform s.controller 0 args) t (reply, c'))
    (hret : reply.ret = kIOReturnSuccess) :
    reply.scalarOutput = (Identity.after {} (traceOf calls)).fields := by
  have hhandler := runs_handler (i := 0) hr hret
  obtain ⟨-, he⟩ := runs_pure.mp hhandler
  obtain ⟨rfl, -⟩ := Prod.mk.inj he
  have hfollows : s.controller.identity = Identity.after {} (traceOf calls) := follows_run h
  rw [← hfollows]
  rfl

/-- After `stop`, the vendor and the device of the last `start` are still answered. -/
theorem identity_of_run_stopped :
    let r := play littleEndianPlatform device8897.environment [] boot [.start, .stop]
    let call := (externalMethod littleEndianPlatform r.2.controller 0
      { scalarInput := [], scalarOutputCount := 10 }).exec device8897.environment []
    call.2.1.scalarOutput = (Identity.after {} (traceOf r.1)).fields ∧
      call.2.1.scalarOutput.take 2 = [0x11ab, 0x2b38] := by
  intro r call
  have h := identity_of_run (run_play [] boot [.start, .stop])
    (Program.runs_exec device8897.environment [] (externalMethod littleEndianPlatform r.2.controller
      0 { scalarInput := [], scalarOutputCount := 10 })) rfl
  exact ⟨h, rfl⟩

end MarvellW8897
