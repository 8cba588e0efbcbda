import MarvellW8897.Properties.Lifecycle
import MarvellW8897.Properties.Options
import MarvellW8897.Spec.Dialogue

/-!
# The probe is passive

* `Calls sels p` — every call of the program `p` has one of the selectors `sels`.
* `Diagnosed` — the calls of `main`, part by part.
* `serve_step` — what one call of the probe does to the instance.
* `probe_passive` — the whole run, alone and against the kext.
-/

namespace MarvellW8897

open Effect

namespace Probe

variable {t : List ProbeEvent} {sels : List UInt32} {α β : Type}

/-! ## The selectors of a program -/

def ProbeOp.Selects (sels : List UInt32) (op : ProbeOp) : Prop :=
  ∀ call, op = .connectCall call → call.selector ∈ sels

/-- Every call of `p` has one of the selectors `sels`. -/
abbrev Calls (sels : List UInt32) (p : ProbeM α) : Prop := Uses (ProbeOp.Selects sels) p

theorem calls_print (line : Line) : Calls sels (print line) :=
  uses_ask (by intro call h; simp at h)

theorem calls_callScalarMethod {n : Nat} {selector : UInt32} {input : List UInt64}
    {out : Fin n → UInt64} {outCount : UInt32} (h : selector ∈ sels) :
    Calls sels (callScalarMethod selector input out outCount) := by
  refine Uses.bind (uses_ask ?_) (fun _ => uses_pure _)
  intro call hc
  rw [← ProbeOp.connectCall.inj hc]
  exact h

theorem calls_readOut {n : Nat} (out : Fin n → UInt64) (i : Nat) : Calls sels (readOut out i) := by
  unfold readOut
  split
  · exact uses_pure _
  · exact uses_ask (by intro call h; simp at h)

theorem calls_printFields {n : Nat} (line : UInt32 → UInt64 → Line) (out : Fin n → UInt64)
    (outCount : UInt32) : Calls sels (printFields line out outCount) :=
  Uses.forM (fun i => Uses.bind (calls_readOut out i) (fun _ => calls_print _))

theorem calls_getPciInfo (h : kMarvellMethodGetPciInfo ∈ sels) : Calls sels getPciInfo :=
  Uses.bind (calls_callScalarMethod h) (fun _ => Uses.bind (calls_print _) (fun _ =>
    Uses.ite (calls_printFields _ _ _) (uses_pure _)))

theorem calls_tryGetBarInfo {selector bar want : UInt32} {snapshot : Option BarInfoSnapshot}
    (h : selector ∈ sels) : Calls sels (tryGetBarInfo selector bar want snapshot) := by
  refine Uses.bind (calls_callScalarMethod h) (fun _ => Uses.bind (calls_print _) (fun _ => ?_))
  refine Uses.ite (uses_pure _) ?_
  exact Uses.bind (calls_printFields _ _ _) (fun _ => uses_pure _)

theorem calls_tryWants (h : kMarvellMethodGetBarInfoLegacy ∈ sels) {bar : UInt32}
    (wants : List UInt32) : Calls sels (tryWants bar wants) := by
  induction wants with
  | nil => exact uses_pure false
  | cons want wants ih =>
    exact Uses.bind (calls_tryGetBarInfo h) (fun _ => Uses.ite (uses_pure _) ih)

theorem calls_queryByAbi (hv2 : kMarvellMethodGetBarInfoV2 ∈ sels)
    (hlegacy : kMarvellMethodGetBarInfoLegacy ∈ sels) {abi : AbiInfo} {bar : UInt32}
    {snapshot : BarInfoSnapshot} : Calls sels (queryByAbi abi bar snapshot) := by
  refine Uses.ite ?_ ?_
  · refine Uses.bind (Uses.ite (calls_tryGetBarInfo hv2) (uses_pure _)) (fun _ => ?_)
    exact Uses.ite (Uses.bind (calls_tryGetBarInfo hlegacy) (fun _ => uses_pure _)) (uses_pure _)
  · refine Uses.bind (calls_tryGetBarInfo hv2) (fun _ => Uses.ite (uses_pure _) ?_)
    exact Uses.bind (calls_tryWants hlegacy _) (fun _ => uses_pure _)

theorem calls_queryBars (hv2 : kMarvellMethodGetBarInfoV2 ∈ sels)
    (hlegacy : kMarvellMethodGetBarInfoLegacy ∈ sels) (abi : AbiInfo) :
    Calls sels (queryBars abi) := by
  refine Uses.foldlM (fun snapshots b => ?_)
  refine Uses.bind (calls_queryByAbi hv2 hlegacy) (fun _ => ?_)
  exact Uses.ite (Uses.bind (calls_print _) (fun _ => uses_pure _)) (uses_pure _)

theorem calls_printBarSummary (snapshots : Fin kMaxBars → BarInfoSnapshot) :
    Calls sels (printBarSummary snapshots) := by
  refine Uses.bind (calls_print _) (fun _ => Uses.bind (Uses.foldlM ?_) (fun _ => ?_))
  · intro sawMappedMemory bar
    refine Uses.ite (Uses.bind (calls_print _) (fun _ => uses_pure _)) ?_
    refine Uses.bind (calls_print _) (fun _ => ?_)
    split
    · exact Uses.bind (calls_print _) (fun _ => uses_pure _)
    · exact uses_pure _
  · exact Uses.ite (Uses.bind (calls_print _) (fun _ => calls_print _)) (calls_print _)

theorem calls_getBringupResult (h : kMarvellMethodGetBringupResult ∈ sels) (abi : AbiInfo) :
    Calls sels (getBringupResult abi) := by
  refine Uses.ite ?_ (calls_print _)
  refine Uses.bind (calls_callScalarMethod h) (fun _ => Uses.bind (calls_print _) (fun _ => ?_))
  exact Uses.ite (Uses.forM (fun _ => calls_print _)) (Uses.ite (calls_print _) (uses_pure _))

theorem calls_printTransportState {selector : UInt32} {kr : IOReturn}
    {outCount : UInt32} {out : Fin 8 → UInt64} :
    Calls sels (printTransportState selector kr outCount out) :=
  Uses.bind (calls_print _) (fun _ =>
    Uses.ite (calls_printFields _ _ _) (Uses.ite (calls_print _) (uses_pure _)))

theorem calls_getTransportState (h : kMarvellMethodGetTransportState ∈ sels)
    (hlegacy : kLegacyMethodGetTransportState ∈ sels) (abi : AbiInfo) :
    Calls sels (getTransportState abi) := by
  refine Uses.ite (calls_print _) (Uses.bind (calls_callScalarMethod h) (fun _ => ?_))
  refine Uses.ite (Uses.bind (calls_callScalarMethod hlegacy) (fun _ => ?_)) ?_
  · exact calls_printTransportState
  · exact calls_printTransportState

/-! ## The calls of a run -/

theorem Calls.exchanges {p : ProbeM α} (h : Calls sels p) {a : α} (hr : Runs p t a) :
    ∀ x ∈ exchanges t, x.call.selector ∈ sels := by
  intro x hx
  obtain ⟨⟨op, reply⟩, he, hxe⟩ := List.mem_filterMap.mp hx
  have hsel := h t a hr _ he
  cases op with
  | connectCall call =>
    rw [← Option.some.inj hxe]
    exact hsel call rfl
  | _ => simp [exchange] at hxe

theorem Calls.exchanges_nil {p : ProbeM α} (h : Calls [] p) {a : α} (hr : Runs p t a) :
    Probe.exchanges t = [] := by
  rw [List.eq_nil_iff_forall_not_mem]
  intro x hx
  simpa using h.exchanges hr x hx

/-- A call: one exchange. -/
theorem runs_callScalarMethod {n : Nat} {selector : UInt32} {input : List UInt64}
    {out : Fin n → UInt64} {outCount : UInt32} {r : IOReturn × UInt32 × (Fin n → UInt64)}
    (h : Runs (callScalarMethod selector input out outCount) t r) :
    ∃ reply : ConnectReply,
      exchanges t = [⟨{ selector, input, capacity := n, outCount }, reply⟩] ∧
      r = (reply.ret, reply.outCount, fill out reply.out) := by
  obtain ⟨reply, rfl, rfl⟩ := runs_ask_map.mp h
  exact ⟨reply, rfl, rfl⟩

def abiCall : ConnectCall where
  selector := kMarvellMethodGetDebugAbiInfo
  input := []
  capacity := 6
  outCount := 6

/-- The call that reads the register at `offset` of BAR `bar`. -/
def readCall (bar offset : UInt32) : ConnectCall where
  selector := kMarvellMethodReadReg32FromBar
  input := [bar.toUInt64, offset.toUInt64]
  capacity := 1
  outCount := 1

/-- The reply is a debug ABI record. -/
def ConnectReply.ReportsAbi (reply : ConnectReply) : Prop :=
  reply.ret = kIOReturnSuccess ∧ reply.outCount ≥ 6

/-- The selector bitmap of a debug ABI record. -/
def ConnectReply.selectorBitmap (reply : ConnectReply) : UInt64 := reply.out.getD 2 0

instance {reply : ConnectReply} : Decidable reply.ReportsAbi := by
  unfold ConnectReply.ReportsAbi
  infer_instance

/-- What the locals about the ABI are set to: the record, or their defaults. -/
def ConnectReply.abiInfo (reply : ConnectReply) : AbiInfo :=
  if reply.ReportsAbi then {
    haveAbiInfo := true
    selectorBitmap := reply.selectorBitmap
    legacyBarCount := (reply.out.getD 3 0).toUInt32
    v2BarCount := (reply.out.getD 4 0).toUInt32
    transportCount := (reply.out.getD 5 0).toUInt32 }
  else {}

theorem runs_getDebugAbiInfo {abi : AbiInfo} (h : Runs getDebugAbiInfo t abi) :
    ∃ reply, exchanges t = [⟨abiCall, reply⟩] ∧ abi = reply.abiInfo := by
  obtain ⟨t₁, r, t₂, rfl, hcall, h₁⟩ := runs_bind.mp h
  obtain ⟨reply, hx, rfl⟩ := runs_callScalarMethod hcall
  obtain ⟨_, t₃, rfl, h₂⟩ := runs_ask_bind.mp h₁
  refine ⟨reply, ?_, ?_⟩
  · have hrest : exchanges t₃ = [] := by
      refine Calls.exchanges_nil ?_ h₂
      exact Uses.ite (Uses.bind (calls_printFields _ _ _) (fun _ => uses_pure _))
        (Uses.ite (Uses.bind (calls_print _) (fun _ => uses_pure _)) (uses_pure _))
    rw [exchanges_append, hx]
    show _ ++ exchanges t₃ = _
    rw [hrest]
    rfl
  · unfold ConnectReply.abiInfo
    split at h₂
    · next hreports =>
      obtain ⟨t₄, _, t₅, -, -, hend⟩ := runs_bind.mp h₂
      obtain ⟨-, rfl⟩ := runs_pure.mp hend
      rw [if_pos (show reply.ReportsAbi from hreports)]
      rfl
    · next hsilent =>
      rw [if_neg (show ¬ reply.ReportsAbi from hsilent)]
      split at h₂
      · exact (runs_ask_map.mp h₂).choose_spec.2
      · exact (runs_pure.mp h₂).2

/--
The calls of the explicit read, `abi` being the reply about the ABI: none, or the one register that
the options name, unless the ABI lacks the selector.
-/
def ReadPart (options : ProbeOptions) (abi : ConnectReply) (xs : List Exchange) : Prop :=
  xs = [] ∨ (options.readBarReg = true ∧
    (abi.ReportsAbi → selectorSupported abi.selectorBitmap kMarvellMethodReadReg32FromBar = true) ∧
    ∃ reply, xs = [⟨readCall options.readBar options.readOffset, reply⟩])

theorem runs_explicitReadBarReg {bar offset : UInt32} {ok : Bool}
    (h : Runs (explicitReadBarReg bar offset) t ok) :
    ∃ reply, exchanges t = [⟨readCall bar offset, reply⟩] := by
  obtain ⟨_, t₁, rfl, h₁⟩ := runs_ask_bind.mp h
  obtain ⟨t₂, r, t₃, rfl, hcall, h₂⟩ := runs_bind.mp h₁
  obtain ⟨reply, hx, rfl⟩ := runs_callScalarMethod hcall
  have hrest : exchanges t₃ = [] :=
    Calls.exchanges_nil (Uses.bind (calls_print _) (fun _ => uses_pure _)) h₂
  refine ⟨reply, ?_⟩
  show exchanges (t₂ ++ t₃) = _
  rw [exchanges_append, hx, hrest]
  rfl

theorem runs_explicitRead {reply : ConnectReply} {options : ProbeOptions}
    (h : Runs (explicitRead reply.abiInfo options) t ()) :
    ReadPart options reply (exchanges t) := by
  unfold explicitRead at h
  split at h
  · next hread =>
    split at h
    · exact Or.inl (Calls.exchanges_nil (calls_print _) h)
    · next hadvertised =>
      obtain ⟨t₁, ok, t₂, rfl, hcall, h₁⟩ := runs_bind.mp h
      obtain ⟨answer, hx⟩ := runs_explicitReadBarReg hcall
      have hrest : exchanges t₂ = [] :=
        Calls.exchanges_nil (Uses.ite (calls_print _) (uses_pure _)) h₁
      refine Or.inr ⟨hread, ?_, answer, by rw [exchanges_append, hx, hrest]; rfl⟩
      intro hreports
      rw [ConnectReply.abiInfo, if_pos hreports] at hadvertised
      simpa using hadvertised
  · exact Or.inl (Calls.exchanges_nil (uses_pure _) h)

/-- The calls that `diagnose` makes, in order. -/
inductive Diagnosed (options : ProbeOptions) : List Exchange → Prop where
  | mk {pre read post : List Exchange} (abi : ConnectReply)
      (hpre : ∀ x ∈ pre, x.call.selector ∈ [kMarvellMethodGetPciInfo])
      (hread : ReadPart options abi read)
      (hpost : ∀ x ∈ post, x.call.selector ∈ [kMarvellMethodGetBarInfoLegacy,
        kMarvellMethodGetBarInfoV2, kMarvellMethodGetTransportState,
        kMarvellMethodGetBringupResult]) :
      Diagnosed options (pre ++ ⟨abiCall, abi⟩ :: (read ++ post))

theorem runs_diagnose {options : ProbeOptions} (h : Runs (diagnose options) t ()) :
    Diagnosed options (exchanges t) := by
  obtain ⟨t₁, _, t₂, rfl, hpci, h₂⟩ := runs_bind.mp h
  obtain ⟨t₃, abi, t₄, rfl, habi, h₄⟩ := runs_bind.mp h₂
  obtain ⟨t₅, _, t₆, rfl, hread, h₆⟩ := runs_bind.mp h₄
  obtain ⟨reply, hx, rfl⟩ := runs_getDebugAbiInfo habi
  have hpost : ∀ x ∈ exchanges t₆, x.call.selector ∈ [kMarvellMethodGetBarInfoLegacy,
      kMarvellMethodGetBarInfoV2, kMarvellMethodGetTransportState,
      kMarvellMethodGetBringupResult] := by
    refine Calls.exchanges (Uses.bind (calls_queryBars ?_ ?_ _) (fun _ =>
      Uses.bind (calls_printBarSummary _) (fun _ =>
        Uses.bind (calls_getBringupResult ?_ _) (fun _ =>
          calls_getTransportState ?_ ?_ _)))) h₆
    all_goals decide
  have hdiagnosed := Diagnosed.mk reply
    (Calls.exchanges (calls_getPciInfo (List.mem_singleton_self _)) hpci)
    (runs_explicitRead hread) hpost
  rw [exchanges_append, exchanges_append, exchanges_append, hx]
  exact hdiagnosed

/-- Only the diagnosis of `connect` makes calls. -/
theorem runs_connect {options : ProbeOptions} {code : UInt32}
    (h : Runs (connect options) t code) :
    exchanges t = [] ∨ ∃ u, Runs (diagnose options) u () ∧ exchanges t = exchanges u := by
  obtain ⟨service, t₁, rfl, h₁⟩ := runs_ask_bind.mp h
  show exchanges t₁ = [] ∨ ∃ u, _ ∧ exchanges t₁ = exchanges u
  split at h₁
  · exact Or.inl (Calls.exchanges_nil (Uses.bind (calls_print _) (fun _ => uses_pure _)) h₁)
  · obtain ⟨kr, t₂, rfl, h₂⟩ := runs_ask_bind.mp h₁
    obtain ⟨_, t₃, rfl, h₃⟩ := runs_ask_bind.mp h₂
    show exchanges t₃ = [] ∨ ∃ u, _ ∧ exchanges t₃ = exchanges u
    split at h₃
    · exact Or.inl (Calls.exchanges_nil (Uses.bind (calls_print _) (fun _ => uses_pure _)) h₃)
    · obtain ⟨t₄, _, t₅, rfl, hdiagnose, h₅⟩ := runs_bind.mp h₃
      -- after the diagnosis only `IOServiceClose` is left
      obtain ⟨_, rfl, -⟩ := runs_ask_map.mp h₅
      refine Or.inr ⟨t₄, hdiagnose, ?_⟩
      rw [exchanges_append]
      exact List.append_nil _

/-- A run of `main` makes no call, or it accepted its arguments and makes those of `diagnose`. -/
theorem runs_main {argv : List CString} {code : UInt32} (h : Runs (main argv) t code) :
    exchanges t = [] ∨ ∃ options u, parseOptions argv = .accepted options ∧
      Runs (diagnose options) u () ∧ exchanges t = exchanges u := by
  unfold main at h
  split at h
  · next options hparsed =>
    rcases runs_connect h with hn | ⟨u, hu, he⟩
    · exact Or.inl hn
    · exact Or.inr ⟨options, u, hparsed, hu, he⟩
  · next refused _ =>
    have hrefusal : Calls [] (printRefusal refused) := by
      cases refused with
      | none => exact uses_pure _
      | some offset => exact calls_print _
    exact Or.inl (Calls.exchanges_nil (Uses.bind hrefusal (fun _ =>
      Uses.bind (calls_print _) (fun _ => uses_pure _))) h)
  · exact Or.inl (Calls.exchanges_nil (Uses.bind (calls_print _) (fun _ => uses_pure _)) h)
  · exact Or.inl (Calls.exchanges_nil (uses_ask (by intro call hc; simp at hc)) h)

/-! ## The register reads of a run -/

def isRegisterRead (x : Exchange) : Bool := x.call.selector == kMarvellMethodReadReg32FromBar

/-- The calls of a run that read a register. -/
def registerReads (t : List ProbeEvent) : List ConnectCall :=
  ((exchanges t).filter isRegisterRead).map Exchange.call

variable {options : ProbeOptions} {xs : List Exchange}

theorem ReadPart.mem {abi : ConnectReply} (h : ReadPart options abi xs) :
    ∀ x ∈ xs, x.call = readCall options.readBar options.readOffset := by
  rcases h with rfl | ⟨-, -, reply, rfl⟩
  · simp
  · intro x hx
    rw [List.mem_singleton.mp hx]

/-- No call writes a register. -/
theorem Diagnosed.selector_not_mem (h : Diagnosed options xs) :
    ∀ x ∈ xs, x.call.selector ∉ [3, 6] := by
  have hpassive : ∀ selector ∈ [kMarvellMethodGetBarInfoLegacy, kMarvellMethodGetBarInfoV2,
      kMarvellMethodGetTransportState, kMarvellMethodGetBringupResult],
      selector ∉ [(3 : UInt32), 6] := by
    simp only [List.forall_mem_cons, List.not_mem_nil, false_imp_iff, implies_true, and_true]
    decide
  intro x hx
  cases h with
  | @mk pre read post abi hpre hread hpost =>
    simp only [List.mem_append, List.mem_cons] at hx
    rcases hx with hx | rfl | hx | hx
    · rw [List.mem_singleton.mp (hpre x hx)]
      decide
    · show kMarvellMethodGetDebugAbiInfo ∉ [3, 6]
      decide
    · rw [hread.mem x hx]
      show kMarvellMethodReadReg32FromBar ∉ [3, 6]
      decide
    · exact hpassive _ (hpost x hx)

/-- The register reads are those of the explicit read, which saw the reply about the ABI. -/
theorem Diagnosed.readPart (h : Diagnosed options xs) :
    ∃ abi, ReadPart options abi (xs.filter isRegisterRead) ∧
      ∀ x ∈ xs, x.call.selector = kMarvellMethodGetDebugAbiInfo → x.reply = abi := by
  have hother : ∀ selector ∈ [kMarvellMethodGetBarInfoLegacy, kMarvellMethodGetBarInfoV2,
      kMarvellMethodGetTransportState, kMarvellMethodGetBringupResult],
      (selector == kMarvellMethodReadReg32FromBar) = false ∧
        selector ≠ kMarvellMethodGetDebugAbiInfo := by
    simp only [List.forall_mem_cons, List.not_mem_nil, false_imp_iff, implies_true, and_true]
    decide
  cases h with
  | @mk pre read post abi hpre hread hpost =>
    have hpre' : pre.filter isRegisterRead = [] := by
      refine List.filter_eq_nil_iff.mpr (fun x hx => ?_)
      rw [isRegisterRead, List.mem_singleton.mp (hpre x hx)]
      decide
    have hread' : read.filter isRegisterRead = read := by
      refine List.filter_eq_self.mpr (fun x hx => ?_)
      rw [isRegisterRead, hread.mem x hx]
      rfl
    have hpost' : post.filter isRegisterRead = [] := by
      refine List.filter_eq_nil_iff.mpr (fun x hx => ?_)
      rw [isRegisterRead, (hother _ (hpost x hx)).1]
      decide
    refine ⟨abi, ?_, ?_⟩
    · rw [List.filter_append, List.filter_cons,
        if_neg (show ¬ isRegisterRead ⟨abiCall, abi⟩ = true from Bool.false_ne_true),
        List.filter_append, hpre', hread', hpost', List.nil_append, List.append_nil]
      exact hread
    · intro x hx hsel
      simp only [List.mem_append, List.mem_cons] at hx
      rcases hx with hx | rfl | hx | hx
      · rw [List.mem_singleton.mp (hpre x hx)] at hsel
        exact absurd hsel (by decide)
      · rfl
      · rw [hread.mem x hx] at hsel
        exact absurd hsel (by decide : kMarvellMethodReadReg32FromBar ≠ _)
      · exact absurd hsel (hother _ (hpost x hx)).2

/-- No call of the probe writes a register. -/
theorem main_selector_not_mem {argv : List CString} {code : UInt32} (h : Runs (main argv) t code) :
    ∀ x ∈ exchanges t, x.call.selector ∉ [3, 6] := by
  rcases runs_main h with hn | ⟨options, u, -, hu, he⟩
  · simp [hn]
  · rw [he]
    exact (runs_diagnose hu).selector_not_mem

/-- The register reads of `main`: none, or the one that the arguments ask for. -/
theorem main_reads {argv : List CString} {code : UInt32} (h : Runs (main argv) t code) :
    (exchanges t).filter isRegisterRead = [] ∨
    ∃ bar offset reply, Requests argv bar offset ∧
      (exchanges t).filter isRegisterRead = [⟨readCall bar offset, reply⟩] ∧
      ∀ x ∈ exchanges t, x.call.selector = kMarvellMethodGetDebugAbiInfo → x.reply.ReportsAbi →
        selectorSupported x.reply.selectorBitmap kMarvellMethodReadReg32FromBar = true := by
  rcases runs_main h with hn | ⟨options, u, hparsed, hu, he⟩
  · exact Or.inl (by rw [hn]; rfl)
  · rw [he]
    obtain ⟨abi, hread, habi⟩ := (runs_diagnose hu).readPart
    rcases hread with hnil | ⟨hasked, hsupported, reply, hone⟩
    · exact Or.inl hnil
    · rcases parseOptions_accepted hparsed with rfl | ⟨bar, offset, hrequests, rfl⟩
      · simp at hasked
      · refine Or.inr ⟨bar, offset, reply, hrequests, hone, ?_⟩
        intro x hx hsel hreports
        rw [habi x hx hsel] at hreports ⊢
        exact hsupported hreports

end Probe

/-! ## Against the kext -/

variable {platform : Platform} {s s' : System} {l : ServedCall} {ls : List ServedCall}

/-- A call that writes no register leaves the instance alone; one that reads makes one load. -/
theorem serve_step (h : Serve platform s l s') (hsel : l.exchange.call.selector ∉ [3, 6]) :
    s' = s ∧ (mmio l.trace = [] ∨
      l.exchange.call.selector = 2 ∧ ∃ w, ∃ raw : UInt32,
        PciBars.Access s.controller.fPciBarState l.exchange.call.arguments.bar
          l.exchange.call.arguments.offset w ∧
        mmio l.trace = [⟨.load w.base l.exchange.call.arguments.offset, raw⟩]) := by
  cases h with
  | refused hret => exact ⟨rfl, Or.inl rfl⟩
  | delivered hstep hret hout =>
    cases hstep with
    | externalMethod hr =>
      cases runs_call hr with
      | failed _ => exact ⟨rfl, Or.inl rfl⟩
      | reported _ ht =>
        refine ⟨rfl, Or.inl (mmio_eq_nil ?_)⟩
        intro e he
        obtain ⟨index, hop⟩ := ht e he
        rw [hop]
        rfl
      | read raw hselector hw => exact ⟨rfl, Or.inr ⟨hselector, _, raw, hw, rfl⟩⟩
      | written hselector _ => exact absurd (by rw [hselector]; decide) hsel
      | flushed _ hselector _ => exact absurd (by rw [hselector]; decide) hsel

/-- A register read is at most one load, of the register it names. -/
theorem serve_read {bar offset : UInt32} (h : Serve platform s l s')
    (hcall : l.exchange.call = Probe.readCall bar offset) :
    mmio l.trace = [] ∨ ∃ w, ∃ raw : UInt32, PciBars.Access s.controller.fPciBarState bar offset w ∧
      mmio l.trace = [⟨.load w.base offset, raw⟩] := by
  have hbar : (Probe.readCall bar offset).arguments.bar = bar := UInt32.toUInt32_toUInt64 bar
  have hoffset : (Probe.readCall bar offset).arguments.offset = offset :=
    UInt32.toUInt32_toUInt64 offset
  have hsel : l.exchange.call.selector ∉ [3, 6] := by
    rw [hcall]
    show Probe.kMarvellMethodReadReg32FromBar ∉ [3, 6]
    decide
  have hstep := (serve_step h hsel).2
  rw [hcall, hbar, hoffset] at hstep
  rcases hstep with hnil | ⟨-, w, raw, hw, hone⟩
  · exact Or.inl hnil
  · exact Or.inr ⟨w, raw, hw, hone⟩

/-- A run without writes leaves the instance as it is, and every call finds it so. -/
theorem serve_path (h : Path (Serve platform) s ls s')
    (hsel : ∀ l ∈ ls, l.exchange.call.selector ∉ [3, 6]) :
    s' = s ∧ ∀ l ∈ ls, Serve platform s l s := by
  induction h with
  | nil => exact ⟨rfl, by simp⟩
  | snoc h hs ih =>
    obtain ⟨rfl, hall⟩ := ih (fun l hl => hsel l (by simp [hl]))
    obtain ⟨rfl, -⟩ := serve_step hs (hsel _ (by simp))
    refine ⟨rfl, ?_⟩
    intro l hl
    rcases List.mem_append.mp hl with hl | hl
    · exact hall l hl
    · rw [List.mem_singleton.mp hl]
      exact hs

/-- The loads and stores of such a run are those of its register reads. -/
theorem mmio_against {t : List Probe.ProbeEvent} (h : Against platform t s ls s')
    (hsel : ∀ x ∈ Probe.exchanges t, x.call.selector ∉ [3, 6]) :
    s' = s ∧ ∃ reads : List ServedCall, (∀ l ∈ reads, Serve platform s l s) ∧
      reads.map ServedCall.exchange = (Probe.exchanges t).filter Probe.isRegisterRead ∧
      mmio (servedTrace ls) = reads.flatMap (fun l => mmio l.trace) := by
  obtain ⟨hexchanges, hpath⟩ := h
  have hsel' : ∀ l ∈ ls, l.exchange.call.selector ∉ [3, 6] := by
    intro l hl
    refine hsel l.exchange ?_
    rw [← hexchanges]
    exact List.mem_map_of_mem hl
  obtain ⟨hs, hall⟩ := serve_path hpath hsel'
  refine ⟨hs, ls.filter (Probe.isRegisterRead ∘ ServedCall.exchange), ?_, ?_, ?_⟩
  · intro l hl
    exact hall l (List.mem_filter.mp hl).1
  · rw [← hexchanges, List.filter_map]
  · rw [flatMap_filter]
    · exact List.filter_flatMap
    · intro l hl hread
      rcases (serve_step (hall l hl) (hsel' l hl)).2 with hnil | ⟨htwo, -⟩
      · exact hnil
      · simp [Probe.isRegisterRead, htwo, Probe.kMarvellMethodReadReg32FromBar] at hread

/-! ## Passivity -/

/--
A run of the probe makes no call that writes a register, and one that reads a register only if the
arguments ask for exactly that register and the reported ABI does not lack the selector. Against an
instance in any reachable state it changes nothing; it makes no load or store unless the arguments
ask for a register, and then at most one load, of that register.
-/
theorem probe_passive {argv : List Probe.CString} {t : List Probe.ProbeEvent} {code : UInt32}
    (h : Runs (Probe.main argv) t code) :
    (∀ x ∈ Probe.exchanges t, x.call.selector ≠ 3 ∧ x.call.selector ≠ 6) ∧
    (Probe.registerReads t = [] ∨ ∃ bar offset, Probe.Requests argv bar offset ∧
      4 ∣ offset.toNat ∧ Probe.registerReads t = [Probe.readCall bar offset]) ∧
    (∀ x ∈ Probe.exchanges t, x.call.selector = Probe.kMarvellMethodGetDebugAbiInfo →
      x.reply.ReportsAbi → Probe.selectorSupported x.reply.selectorBitmap 2 = false →
      Probe.registerReads t = []) ∧
    ∀ platform calls s served s', Run platform boot calls s → Against platform t s served s' →
      s' = s ∧
      ((¬ ∃ bar offset, Probe.Requests argv bar offset) → mmio (servedTrace served) = []) ∧
      (∀ bar offset, Probe.Requests argv bar offset → mmio (servedTrace served) = [] ∨
        ∃ w, ∃ raw : UInt32, PciBars.Access s.controller.fPciBarState bar offset w ∧
          mmio (servedTrace served) = [⟨.load w.base offset, raw⟩]) := by
  have hsel := Probe.main_selector_not_mem h
  have hreads := Probe.main_reads h
  refine ⟨?_, ?_, ?_, ?_⟩
  · intro x hx
    have hnot := hsel x hx
    exact ⟨fun h3 => hnot (by rw [h3]; decide), fun h6 => hnot (by rw [h6]; decide)⟩
  · unfold Probe.registerReads
    rcases hreads with hnil | ⟨bar, offset, reply, hrequests, hone, -⟩
    · exact Or.inl (by rw [hnil]; rfl)
    · obtain ⟨-, -, -, -, -, halign⟩ := id hrequests
      exact Or.inr ⟨bar, offset, hrequests, halign, by rw [hone]; rfl⟩
  · intro x hx habi hreports hlacks
    unfold Probe.registerReads
    rcases hreads with hnil | ⟨bar, offset, reply, -, -, hsupported⟩
    · rw [hnil]
      rfl
    -- a read was made although the bitmap lacks the selector
    · have hhas := hsupported x hx habi hreports
      rw [show Probe.kMarvellMethodReadReg32FromBar = 2 from rfl, hlacks] at hhas
      simp at hhas
  · intro platform calls s served s' _ hagainst
    obtain ⟨hs, reads, hserved, hmap, hmmio⟩ := mmio_against hagainst hsel
    refine ⟨hs, ?_, ?_⟩
    · intro hnone
      rcases hreads with hnil | ⟨bar, offset, reply, hrequests, -⟩
      · rw [hnil, List.map_eq_nil_iff] at hmap
        rw [hmmio, hmap]
        rfl
      · exact absurd ⟨bar, offset, hrequests⟩ hnone
    · intro bar offset hrequests
      rcases hreads with hnil | ⟨bar', offset', reply, hrequests', hone, -⟩
      · rw [hnil, List.map_eq_nil_iff] at hmap
        exact Or.inl (by rw [hmmio, hmap]; rfl)
      · obtain ⟨rfl, rfl⟩ := hrequests.unique hrequests'
        rw [hone] at hmap
        obtain ⟨l, rfl, hl⟩ := List.map_eq_singleton_iff.mp hmap
        rw [hmmio, List.flatMap_cons, List.flatMap_nil, List.append_nil]
        exact serve_read (hserved l (List.mem_singleton_self l)) (by rw [hl])

/-- `marvell_probe --read-bar-reg 0 0x44`. -/
def readArgv : List Probe.CString :=
  [⟨['p'].map Libc.ascii, by decide⟩, Probe.readBarRegOption, ⟨['0'].map Libc.ascii, by decide⟩,
    ⟨['0', 'x', '4', '4'].map Libc.ascii, by decide⟩]

/-- The probe asks a started instance for one register, and its run makes one load at most. -/
theorem probe_passive_read :
    let s := (play littleEndianPlatform device8897.environment [] boot [.start]).2
    let t := ((Probe.main readArgv).exec
      (respond littleEndianPlatform device8897.environment [] s) []).1
    Probe.registerReads t = [Probe.readCall 0 0x44] ∧
      ∃ served, Against littleEndianPlatform t s served s ∧ (mmio (servedTrace served) = [] ∨
        ∃ w, ∃ raw : UInt32, mmio (servedTrace served) = [⟨.load w 0x44, raw⟩]) := by
  intro s t
  have hagainst : Against littleEndianPlatform t s _ _ := against_exec [] s (Probe.main readArgv)
  have hpassive := (probe_passive (Program.runs_exec (respond littleEndianPlatform
    device8897.environment [] s) [] (Probe.main readArgv))).2.2.2 _ _ _ _ _
    (run_play [] boot [.start]) hagainst
  obtain ⟨hs, -, hloads⟩ := hpassive
  rw [hs] at hagainst
  refine ⟨by decide +kernel, _, hagainst, ?_⟩
  rcases hloads 0 0x44 ⟨_, _, rfl, by decide, by decide, by decide⟩ with hnil | ⟨w, raw, -, hone⟩
  · exact Or.inl hnil
  · exact Or.inr ⟨w.base, raw, hone⟩

end MarvellW8897
