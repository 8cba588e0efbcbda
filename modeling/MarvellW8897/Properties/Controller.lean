import MarvellW8897.Kext.Controller
import MarvellW8897.Properties.Association
import MarvellW8897.Properties.Bringup

/-!
# start and stop

* `inspect` — what `start` does and finds out between `open` and the bring-up.
* `runs_start` — `start` takes one of six exits.
* `runs_stop_started`, `runs_stop_idle` — `stop` releases what the instance holds, and nothing else.
-/

namespace MarvellW8897

open Effect

namespace Controller

variable {host : ByteOrder} {c c' : Controller} {t : List DeviceEvent}

/-! ## The provider's configuration -/

/-- `c'` differs from `c` in the identity fields at most. -/
structure SameButIdentity (c c' : Controller) : Prop where
  fPCIDevice : c'.fPCIDevice = c.fPCIDevice
  fDeviceOpen : c'.fDeviceOpen = c.fDeviceOpen
  fPciBarState : c'.fPciBarState = c.fPciBarState
  fTransportState : c'.fTransportState = c.fTransportState
  fBringupResult : c'.fBringupResult = c.fBringupResult

/-- The first two reads give the vendor and the device; all ten are configuration reads. -/
theorem runs_readIdentity (h : Runs (readIdentity c) t c') :
    SameButIdentity c c' ∧ Only [.config] t ∧
      ∃ rest, t = ⟨.configRead16 kIOPCIConfigVendorID, c'.fVendorId⟩ ::
        ⟨.configRead16 kIOPCIConfigDeviceID, c'.fDeviceId⟩ :: rest := by
  simp only [readIdentity, runs_ask_bind, runs_pure] at h
  obtain ⟨v, _, rfl, d, _, rfl, sv, _, rfl, ss, _, rfl, rev, _, rfl, cls, _, rfl, cmd, _, rfl,
    st, _, rfl, line, _, rfl, pin, _, rfl, rfl, rfl⟩ := h
  refine ⟨⟨rfl, rfl, rfl, rfl, rfl⟩, ?_, _, rfl⟩
  simp [Only, DeviceOp.kind]

theorem runs_enableDevice (h : Runs (enableDevice c) t c') :
    SameButIdentity c c' ∧ c'.fVendorId = c.fVendorId ∧ c'.fDeviceId = c.fDeviceId ∧
      Only [.config, .enable] t := by
  simp only [enableDevice, runs_ask_bind, runs_pure] at h
  obtain ⟨_, _, rfl, _, _, rfl, cmd, _, rfl, st, _, rfl, rfl, rfl⟩ := h
  refine ⟨⟨rfl, rfl, rfl, rfl, rfl⟩, rfl, rfl, ?_⟩
  simp [Only, DeviceOp.kind]

/--
What `start` finds out about an open device before the bring-up, and does on the way: the two IDs,
and the outcome of the mapping. None of it depends on the instance.
-/
def inspect : DeviceM (UInt16 × UInt16 × Bool × PciBarState) := do
  let c ← readIdentity {}
  let c ← enableDevice c
  let (mapped, bars) ← PciBars.mapDeviceBars true {}
  return (c.fVendorId, c.fDeviceId, mapped, bars)

theorem runs_inspect {vendorId deviceId : UInt16} {mapped : Bool} {bars : PciBarState}
    (h : Runs inspect t (vendorId, deviceId, mapped, bars)) :
    (mapped = true ∧ PciBars.Built t bars) ∨
      (mapped = false ∧ bars = {} ∧ PciBars.Undone t) := by
  obtain ⟨t₁, c₁, t', rfl, h₁, h'⟩ := runs_bind.mp h
  obtain ⟨t₂, c₂, t'', rfl, h₂, h''⟩ := runs_bind.mp h'
  obtain ⟨t₃, ⟨ok, state⟩, t₄, rfl, h₃, hend⟩ := runs_bind.mp h''
  obtain ⟨rfl, he⟩ := runs_pure.mp hend
  obtain ⟨-, -, rfl, rfl⟩ : _ ∧ _ ∧ mapped = ok ∧ bars = state := by simpa using he
  obtain ⟨-, hid, -⟩ := runs_readIdentity h₁
  obtain ⟨-, -, -, hen⟩ := runs_enableDevice h₂
  have hpre : Only [.config, .enable] (t₁ ++ t₂) := hid.mono.append hen
  rw [List.append_nil, ← List.append_assoc]
  rcases PciBars.mapDeviceBars_spec h₃ with ⟨hok, hb⟩ | ⟨hok, hs, hu⟩
  · exact Or.inl ⟨hok, hb.prepend hpre⟩
  · exact Or.inr ⟨hok, hs, hu.prepend hpre⟩

theorem inspect_built {vendorId deviceId : UInt16} {bars : PciBarState}
    (h : Runs inspect t (vendorId, deviceId, true, bars)) : PciBars.Built t bars := by
  rcases runs_inspect h with ⟨-, hbuilt⟩ | ⟨hf, -⟩
  · exact hbuilt
  · simp at hf

/-- The IDs are the first two answers of the open device. -/
theorem inspect_ids {vendorId deviceId : UInt16} {mapped : Bool} {bars : PciBarState}
    (h : Runs inspect t (vendorId, deviceId, mapped, bars)) :
    ∃ rest, t = ⟨.configRead16 kIOPCIConfigVendorID, vendorId⟩ ::
      ⟨.configRead16 kIOPCIConfigDeviceID, deviceId⟩ :: rest := by
  obtain ⟨t₁, c₁, t', rfl, h₁, h'⟩ := runs_bind.mp h
  obtain ⟨t₂, c₂, t'', rfl, h₂, h''⟩ := runs_bind.mp h'
  obtain ⟨t₃, r, t₄, rfl, -, hend⟩ := runs_bind.mp h''
  obtain ⟨rfl, he⟩ := runs_pure.mp hend
  obtain ⟨rfl, rfl, -⟩ :
      vendorId = c₂.fVendorId ∧ deviceId = c₂.fDeviceId ∧ (mapped, bars) = r := by
    simpa using he
  obtain ⟨-, -, rest, rfl⟩ := runs_readIdentity h₁
  obtain ⟨-, hv, hd, -⟩ := runs_enableDevice h₂
  rw [hv, hd]
  exact ⟨_, rfl⟩

theorem inspect_undone {vendorId deviceId : UInt16} {bars : PciBarState}
    (h : Runs inspect t (vendorId, deviceId, false, bars)) : bars = {} ∧ PciBars.Undone t := by
  rcases runs_inspect h with ⟨hf, -⟩ | ⟨-, hundone⟩
  · simp at hf
  · exact hundone

/-- What the answers of an open device describe: the two IDs, its slots and its mapped resources. -/
def survey : DeviceM (UInt16 × UInt16 × PciBarState) := do
  let c ← readIdentity {}
  let c ← enableDevice c
  let table ← PciBars.gather {}
  return (c.fVendorId, c.fDeviceId, table)

/-- `inspect` surveys the device, and succeeds exactly if there is something to map. -/
theorem inspect_survey {vendorId deviceId : UInt16} {mapped : Bool} {bars : PciBarState}
    (h : Runs inspect t (vendorId, deviceId, mapped, bars)) :
    ∃ u w table, t = u ++ w ∧ Runs survey u (vendorId, deviceId, table) ∧
      (mapped = true ↔ PciBars.Mappable table) ∧
      (mapped = true → bars = PciBars.associateFallback (PciBars.associateExact table)) := by
  obtain ⟨t₁, c₁, t', rfl, h₁, h'⟩ := runs_bind.mp h
  obtain ⟨t₂, c₂, t'', rfl, h₂, h''⟩ := runs_bind.mp h'
  obtain ⟨t₃, ⟨ok, state⟩, t₄, rfl, h₃, hend⟩ := runs_bind.mp h''
  obtain ⟨rfl, he⟩ := runs_pure.mp hend
  obtain ⟨rfl, rfl, rfl, rfl⟩ :
    _ = c₂.fVendorId ∧ _ = c₂.fDeviceId ∧ mapped = ok ∧ bars = state := by simpa using he
  obtain ⟨u, w, table, rfl, -, hgather, hiff, hbars⟩ := PciBars.mapDeviceBars_gather h₃
  refine ⟨t₁ ++ (t₂ ++ (u ++ [])), w, table, by simp, ?_, hiff, hbars⟩
  exact h₁.bind (h₂.bind (hgather.bind (runs_pure.mpr ⟨rfl, rfl⟩)))

/-- The identity is read without a look at the instance, and then filled in. -/
theorem readIdentity_eq (c : Controller) : readIdentity c = readIdentity {} >>= fun d =>
    pure { c with
      fVendorId := d.fVendorId, fDeviceId := d.fDeviceId, fSubVendorId := d.fSubVendorId
      fSubSystemId := d.fSubSystemId, fRevisionId := d.fRevisionId, fClassCode := d.fClassCode
      fCommand := d.fCommand, fStatus := d.fStatus, fInterruptLine := d.fInterruptLine
      fInterruptPin := d.fInterruptPin } :=
  rfl

theorem enableDevice_eq (c : Controller) : enableDevice c = enableDevice {} >>= fun d =>
    pure { c with fCommand := d.fCommand, fStatus := d.fStatus } :=
  rfl

/-- A fresh instance reads the same IDs. -/
theorem readIdentity_transfer (h : Runs (readIdentity c) t c') :
    ∃ d, Runs (readIdentity {}) t d ∧ d.fVendorId = c'.fVendorId ∧ d.fDeviceId = c'.fDeviceId := by
  rw [readIdentity_eq] at h
  obtain ⟨t₁, d, t₂, rfl, hd, hend⟩ := runs_bind.mp h
  obtain ⟨rfl, rfl⟩ := runs_pure.mp hend
  rw [List.append_nil]
  exact ⟨d, hd, rfl, rfl⟩

/-- Any other instance is enabled by the same requests, and keeps its IDs. -/
theorem enableDevice_transfer (h : Runs (enableDevice c) t c') (d : Controller) :
    ∃ d', Runs (enableDevice d) t d' ∧ d'.fVendorId = d.fVendorId ∧ d'.fDeviceId = d.fDeviceId := by
  rw [enableDevice_eq] at h ⊢
  obtain ⟨t₁, e, t₂, rfl, he, hend⟩ := runs_bind.mp h
  obtain ⟨rfl, -⟩ := runs_pure.mp hend
  exact ⟨_, he.bind (runs_pure.mpr ⟨rfl, rfl⟩), rfl, rfl⟩

/-- The first part of `startOpened` is a run of `inspect`. -/
theorem runs_inspect_of {c₁ c₂ : Controller} {t₁ t₂ t₃ : List DeviceEvent}
    {state bars : PciBarState} {mapped : Bool} (h₁ : Runs (readIdentity c) t₁ c₁)
    (h₂ : Runs (enableDevice c₁) t₂ c₂)
    (h₃ : Runs (PciBars.mapDeviceBars true state) t₃ (mapped, bars)) :
    Runs inspect (t₁ ++ t₂ ++ t₃) (c₁.fVendorId, c₁.fDeviceId, mapped, bars) := by
  obtain ⟨d₁, hd₁, hv₁, hi₁⟩ := readIdentity_transfer h₁
  obtain ⟨d₂, hd₂, hv₂, hi₂⟩ := enableDevice_transfer h₂ d₁
  rw [← hv₁, ← hi₁, ← hv₂, ← hi₂, List.append_assoc]
  exact hd₁.bind (hd₂.bind (runs_bind.mpr ⟨t₃, (mapped, bars), [], by simp, h₃,
    runs_pure.mpr ⟨rfl, rfl⟩⟩))

/-! ## start -/

/-- The fields of an instance, apart from the identity. -/
structure Fields (c : Controller) (device : Bool) (bars : PciBarState) (ts : TransportState)
    (result : BringupResult) : Prop where
  fPCIDevice : c.fPCIDevice = device
  fDeviceOpen : c.fDeviceOpen = device
  fPciBarState : c.fPciBarState = bars
  fTransportState : c.fTransportState = ts
  fBringupResult : c.fBringupResult = result

/-- The provider is there, retained and open. -/
def openTrace : List DeviceEvent :=
  [⟨.superStart, true⟩, ⟨.dynamicCast, true⟩, ⟨.retain, ()⟩, ⟨.openProvider, true⟩]

/-- What a failing exit of `start` does once the provider is open. -/
def failTrace (bars : PciBarState) : List DeviceEvent :=
  PciBars.releaseTrace bars ++ [⟨.closeProvider, ()⟩, ⟨.setBusMasterEnable false, ()⟩,
    ⟨.setMemoryEnable false, ()⟩, ⟨.release, ()⟩]

/-- What `stop` does with an open provider. -/
def stopTrace (bars : PciBarState) : List DeviceEvent :=
  PciBars.releaseTrace bars ++ [⟨.setBusMasterEnable false, ()⟩, ⟨.setMemoryEnable false, ()⟩,
    ⟨.closeProvider, ()⟩, ⟨.release, ()⟩, ⟨.superStop, ()⟩]

theorem runs_releaseMappedBars (h : Runs (releaseMappedBars c) t c') :
    t = PciBars.releaseTrace c.fPciBarState ∧ c' = { c with fPciBarState := {} } := by
  obtain ⟨t₁, bars, t₂, rfl, hrel, hend⟩ := runs_bind.mp h
  obtain ⟨rfl, rfl⟩ := PciBars.runs_release.mp hrel
  obtain ⟨rfl, rfl⟩ := runs_pure.mp hend
  exact ⟨List.append_nil _, rfl⟩

theorem runs_closeDevice (hopen : c.fDeviceOpen = true) (h : Runs (closeDevice c) t c') :
    t = [⟨.closeProvider, ()⟩] ∧ c' = { c with fDeviceOpen := false } := by
  unfold closeDevice at h
  rw [if_pos hopen] at h
  obtain ⟨_, t₁, rfl, hend⟩ := runs_ask_bind.mp h
  obtain ⟨rfl, rfl⟩ := runs_pure.mp hend
  exact ⟨rfl, rfl⟩

theorem runs_failStart {r : Bool × Controller} (hopen : c.fDeviceOpen = true)
    (h : Runs (failStart c) t r) : t = failTrace c.fPciBarState ∧ r.1 = false ∧
      Fields r.2 false {} c.fTransportState c.fBringupResult := by
  obtain ⟨t₁, c₁, t₂, rfl, hrelease, h₂⟩ := runs_bind.mp h
  obtain ⟨rfl, rfl⟩ := runs_releaseMappedBars hrelease
  obtain ⟨t₃, c₃, t₄, rfl, hclose, h₄⟩ := runs_bind.mp h₂
  obtain ⟨rfl, rfl⟩ := runs_closeDevice (by exact hopen) hclose
  simp only [runs_ask_bind, runs_pure] at h₄
  obtain ⟨_, _, rfl, _, _, rfl, _, _, rfl, rfl, rfl⟩ := h₄
  exact ⟨rfl, rfl, rfl, rfl, rfl, rfl, rfl⟩

/-- The profile that `start` configures before the bring-up. -/
def profileFor (vendorId deviceId : UInt16) : TransportState :=
  (Transport.configurePcieProfile {} vendorId deviceId).2

/-- The exits of `start`: the requests made, and what is handed back. -/
inductive StartExit (host : ByteOrder) (c : Controller) :
    List DeviceEvent → Bool × Controller → Prop where
  | superFailed : StartExit host c [⟨.superStart, false⟩] (false, c)
  | castFailed : StartExit host c [⟨.superStart, true⟩, ⟨.dynamicCast, false⟩]
      (false, { c with fPCIDevice := false })
  | openFailed : StartExit host c
      [⟨.superStart, true⟩, ⟨.dynamicCast, true⟩, ⟨.retain, ()⟩, ⟨.openProvider, false⟩,
        ⟨.release, ()⟩]
      (false, { c with fPCIDevice := false })
  | mapFailed {t : List DeviceEvent} {vendorId deviceId : UInt16} {bars : PciBarState}
      {c' : Controller} (hinspect : Runs inspect t (vendorId, deviceId, false, bars))
      (hfields : Fields c' false {} c.fTransportState c.fBringupResult) :
      StartExit host c (openTrace ++ t ++ failTrace bars) (false, c')
  | bringupFailed {t t' : List DeviceEvent} {vendorId deviceId : UInt16} {bars : PciBarState}
      {ts : TransportState} {result : BringupResult} {c' : Controller}
      (hinspect : Runs inspect t (vendorId, deviceId, true, bars))
      (hrun : Bringup.RunExit host bars (profileFor vendorId deviceId) t' (false, ts, result))
      (hfields : Fields c' false {} ts result) :
      StartExit host c (openTrace ++ t ++ t' ++ failTrace bars) (false, c')
  | started {t t' : List DeviceEvent} {vendorId deviceId : UInt16} {bars : PciBarState}
      {ts : TransportState} {result : BringupResult} {c' : Controller}
      (hinspect : Runs inspect t (vendorId, deviceId, true, bars))
      (hrun : Bringup.RunExit host bars (profileFor vendorId deviceId) t' (true, ts, result))
      (hfields : Fields c' true bars ts result) :
      StartExit host c (openTrace ++ t ++ t' ++ [⟨.registerService, ()⟩]) (true, c')

/-- `start` from the bring-up on. -/
theorem runs_startMapped {r : Bool × Controller} (hdevice : c.fPCIDevice = true)
    (hopen : c.fDeviceOpen = true) (h : Runs (startMapped host c) t r) :
    ∃ t' ok ts result, Bringup.RunExit host c.fPciBarState (profileFor c.fVendorId c.fDeviceId) t'
        (ok, ts, result) ∧
      ((ok = false ∧ t = t' ++ failTrace c.fPciBarState ∧ r.1 = false ∧
          Fields r.2 false {} ts result) ∨
        (ok = true ∧ t = t' ++ [⟨.registerService, ()⟩] ∧ r.1 = true ∧
          Fields r.2 true c.fPciBarState ts result)) := by
  obtain ⟨t₁, ⟨ok, ts, result⟩, t₂, rfl, hrun, hend⟩ := runs_bind.mp h
  refine ⟨t₁, ok, ts, result, Bringup.runs_run hrun, ?_⟩
  dsimp only at hend
  cases ok with
  | false =>
    rw [if_pos (by simp)] at hend
    obtain ⟨rfl, hr, hf⟩ := runs_failStart (by exact hopen) hend
    exact Or.inl ⟨rfl, rfl, hr, hf⟩
  | true =>
    rw [if_neg (by simp)] at hend
    obtain ⟨_, t₃, rfl, hp⟩ := runs_ask_bind.mp hend
    obtain ⟨rfl, rfl⟩ := runs_pure.mp hp
    exact Or.inr ⟨rfl, rfl, rfl, hdevice, hopen, rfl, rfl, rfl⟩

/-- `start` once the provider is open; `c₀` is the instance that `start` was called on. -/
theorem runs_startOpened {c₀ : Controller} {r : Bool × Controller} (hdevice : c.fPCIDevice = true)
    (hopen : c.fDeviceOpen = true) (hts : c.fTransportState = c₀.fTransportState)
    (hresult : c.fBringupResult = c₀.fBringupResult) (h : Runs (startOpened host c) t r) :
    StartExit host c₀ (openTrace ++ t) r := by
  obtain ⟨ti, c₁, t₁, rfl, hid, h₁⟩ := runs_bind.mp h
  obtain ⟨te, c₂, t₂, rfl, hen, h₂⟩ := runs_bind.mp h₁
  obtain ⟨tm, ⟨mapped, bars⟩, t₃, rfl, hmap, h₃⟩ := runs_bind.mp h₂
  obtain ⟨hs₁, -, -⟩ := runs_readIdentity hid
  obtain ⟨hs₂, hv, hd, -⟩ := runs_enableDevice hen
  have hdevice₂ : c₂.fPCIDevice = true := by rw [hs₂.fPCIDevice, hs₁.fPCIDevice, hdevice]
  have hopen₂ : c₂.fDeviceOpen = true := by rw [hs₂.fDeviceOpen, hs₁.fDeviceOpen, hopen]
  rw [hdevice₂] at hmap
  have hinspect := runs_inspect_of hid hen hmap
  obtain ⟨ok, c'⟩ := r
  dsimp only at h₃
  -- a failed mapping leaves the transport and the bring-up as they were, a failed bring-up does not
  cases mapped with
  | false =>
    rw [if_pos (by simp)] at h₃
    obtain ⟨rfl, rfl, hf⟩ := runs_failStart (by exact hopen₂) h₃
    dsimp only at hf
    rw [hs₂.fTransportState, hs₁.fTransportState, hs₂.fBringupResult, hs₁.fBringupResult, hts,
      hresult] at hf
    have he : StartExit host _ _ _ := StartExit.mapFailed hinspect hf
    simpa only [List.append_assoc] using he
  | true =>
    rw [if_neg (by simp)] at h₃
    obtain ⟨tb, ok', ts, result, hrun, hexit⟩ :=
      runs_startMapped (by exact hdevice₂) (by exact hopen₂) h₃
    dsimp only at hrun hexit
    rw [hv, hd] at hrun
    rcases hexit with ⟨rfl, rfl, rfl, hf⟩ | ⟨rfl, rfl, rfl, hf⟩
    · have he := StartExit.bringupFailed (c := c₀) hinspect hrun hf
      simpa only [List.append_assoc] using he
    · have he := StartExit.started (c := c₀) hinspect hrun hf
      simpa only [List.append_assoc] using he

theorem runs_start {r : Bool × Controller} (h : Runs (start host c) t r) :
    StartExit host c t r := by
  obtain ⟨started, t₁, rfl, h₁⟩ := runs_ask_bind.mp h
  cases started with
  | false =>
    obtain ⟨rfl, rfl⟩ := runs_pure.mp h₁
    exact StartExit.superFailed
  | true =>
    obtain ⟨device, t₂, rfl, h₂⟩ := runs_ask_bind.mp h₁
    cases device with
    | false =>
      obtain ⟨rfl, rfl⟩ := runs_pure.mp h₂
      exact StartExit.castFailed
    | true =>
      obtain ⟨⟨⟩, t₃, rfl, h₃⟩ := runs_ask_bind.mp h₂
      obtain ⟨opened, t₄, rfl, h₄⟩ := runs_ask_bind.mp h₃
      cases opened with
      | false =>
        obtain ⟨⟨⟩, t₅, rfl, h₅⟩ := runs_ask_bind.mp h₄
        obtain ⟨rfl, rfl⟩ := runs_pure.mp h₅
        exact StartExit.openFailed
      | true =>
        exact runs_startOpened (c := { c with fPCIDevice := true, fDeviceOpen := true }) rfl rfl rfl
          rfl h₄

theorem rejected_trace {bars : PciBarState} {ts ts' : TransportState} {result : BringupResult}
    (h : Bringup.RunExit host bars ts t (false, ts', result)) : t = [] := by
  cases h
  rfl

theorem only_registerService : Only [.service] [(⟨.registerService, ()⟩ : DeviceEvent)] := by
  simp [Only, DeviceOp.kind]

theorem only_superStop : Only [.service] [(⟨.superStop, ()⟩ : DeviceEvent)] := by
  simp [Only, DeviceOp.kind]

theorem only_failTrace (bars : PciBarState) :
    Only [.drop, .provider, .enable] (failTrace bars) := by
  refine (PciBars.only_releaseTrace bars).mono.append ?_
  simp [Only, DeviceOp.kind]

/-- A `start` that fails makes no load or store; one that succeeds makes those of the bring-up. -/
theorem StartExit.parts {ok : Bool} (h : StartExit host c t (ok, c')) :
    (ok = false ∧ Only [.service, .provider, .config, .enable, .map, .drop, .other] t) ∨
    (ok = true ∧ ∃ tp tb vendorId deviceId bars ts result,
      t = openTrace ++ tp ++ tb ++ [⟨.registerService, ()⟩] ∧
      Runs inspect tp (vendorId, deviceId, true, bars) ∧ PciBars.Built tp bars ∧
      Bringup.RunExit host bars (profileFor vendorId deviceId) tb (true, ts, result) ∧
      Fields c' true bars ts result) := by
  have hopen : Only [.service, .provider, .config, .enable, .map, .drop, .other] openTrace := by
    simp [Only, openTrace, DeviceOp.kind]
  cases h with
  | superFailed => exact Or.inl ⟨rfl, by simp [Only, DeviceOp.kind]⟩
  | castFailed => exact Or.inl ⟨rfl, by simp [Only, DeviceOp.kind]⟩
  | openFailed => exact Or.inl ⟨rfl, by simp [Only, DeviceOp.kind]⟩
  | mapFailed hinspect _ =>
    obtain ⟨-, hundone⟩ := inspect_undone hinspect
    exact Or.inl ⟨rfl, (hopen.append hundone.ops.mono).append (only_failTrace _).mono⟩
  | bringupFailed hinspect hrun _ =>
    rw [rejected_trace hrun, List.append_nil]
    exact Or.inl ⟨rfl, (hopen.append (inspect_built hinspect).ops.mono).append
      (only_failTrace _).mono⟩
  | started hinspect hrun hfields =>
    exact Or.inr ⟨rfl, _, _, _, _, _, _, _, rfl, hinspect, inspect_built hinspect, hrun, hfields⟩

/-! ## stop -/

theorem only_stopTrace (bars : PciBarState) :
    Only [.drop, .provider, .enable, .service] (stopTrace bars) := by
  refine (PciBars.only_releaseTrace bars).mono.append ?_
  simp [Only, DeviceOp.kind]

/-- `stop` on an instance that is started. -/
theorem runs_stop_started {bars : PciBarState} {ts : TransportState} {result : BringupResult}
    (hc : Fields c true bars ts result) (h : Runs (stop c) t c') :
    t = stopTrace bars ∧ Fields c' false {} {} {} := by
  obtain ⟨t₁, c₁, t₂, rfl, hrelease, h₂⟩ := runs_bind.mp h
  obtain ⟨rfl, rfl⟩ := runs_releaseMappedBars hrelease
  dsimp only at h₂
  rw [if_pos hc.fPCIDevice] at h₂
  obtain ⟨_, t₃, rfl, h₃⟩ := runs_ask_bind.mp h₂
  obtain ⟨_, t₄, rfl, h₄⟩ := runs_ask_bind.mp h₃
  obtain ⟨t₅, c₅, t₆, rfl, hclose, h₆⟩ := runs_bind.mp h₄
  obtain ⟨rfl, rfl⟩ := runs_closeDevice (by exact hc.fDeviceOpen) hclose
  obtain ⟨_, t₇, rfl, h₇⟩ := runs_ask_bind.mp h₆
  obtain ⟨_, rfl, rfl⟩ := runs_ask_map.mp h₇
  refine ⟨?_, rfl, rfl, rfl, rfl, rfl⟩
  rw [hc.fPciBarState]
  rfl

/-- `stop` on an instance that is not started asks nothing of the device. -/
theorem runs_stop_idle {ts : TransportState} {result : BringupResult}
    (hc : Fields c false {} ts result) (h : Runs (stop c) t c') :
    t = [⟨.superStop, ()⟩] ∧ Fields c' false {} {} {} := by
  obtain ⟨t₁, c₁, t₂, rfl, hrelease, h₂⟩ := runs_bind.mp h
  obtain ⟨rfl, rfl⟩ := runs_releaseMappedBars hrelease
  dsimp only at h₂
  rw [if_neg (by simp [hc.fPCIDevice])] at h₂
  obtain ⟨t₃, c₃, t₄, rfl, hskip, hend⟩ := runs_bind.mp h₂
  obtain ⟨rfl, rfl⟩ := runs_pure.mp hskip
  obtain ⟨_, rfl, rfl⟩ := runs_ask_map.mp hend
  refine ⟨?_, hc.fPCIDevice, hc.fDeviceOpen, rfl, rfl, rfl⟩
  rw [hc.fPciBarState, PciBars.releaseTrace_eq_nil (fun _ => rfl)]
  rfl

end Controller

end MarvellW8897
