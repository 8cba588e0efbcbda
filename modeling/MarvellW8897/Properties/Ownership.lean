import MarvellW8897.Properties.Lifecycle

/-!
# Ownership of the provider

The configuration of a provider may be read and changed only by the driver that has it open. The
two exits of `start` that follow a failed mapping and a failed bring-up close the provider first
and disable it afterwards; `stop` does it in the right order.

* `ownership_respected_iff` — a run keeps to its sessions exactly if no `start` takes such an exit.
-/

namespace MarvellW8897

open Effect

variable {platform : Platform} {host : ByteOrder} {t u : List DeviceEvent} {c c' : Controller}
  {s s' : System} {calls : List CallRecord} {r : CallRecord} {b : Bool}

/-! ## Parts of a trace -/

theorem session_eq_false {e : DeviceEvent} (h : e.op.kind ≠ .provider) :
    providerSession.opens e = false ∧ providerSession.closes e = false := by
  obtain ⟨-, -, hopen, hclose⟩ := provider_quiet h
  exact ⟨hopen, hclose⟩

theorem guarded_eq_false {e : DeviceEvent} {kinds : List OpKind} (h : e.op.kind ∈ kinds)
    (hk : .config ∉ kinds ∧ .enable ∉ kinds ∧ .map ∉ kinds) :
    providerSession.guarded e = false := by
  obtain ⟨op, resp⟩ := e
  cases op <;> simp_all [providerSession, DeviceOp.needsOpen, DeviceOp.kind]

theorem Only.session_after {kinds : List OpKind} (h : Only kinds t)
    (hk : .provider ∉ kinds := by decide) : providerSession.after b t = b :=
  Session.after_eq (fun _ he => session_eq_false (h.kind_ne he hk))

/-- Requests that need no open provider are allowed at any time. -/
theorem Only.respected {kinds : List OpKind} (h : Only kinds t)
    (hk : .config ∉ kinds ∧ .enable ∉ kinds ∧ .map ∉ kinds := by decide) :
    providerSession.Respected b t :=
  Session.respected_unguarded (fun e he => guarded_eq_false (h e he) hk)

/-- While the provider is open, requests that do not close it are allowed. -/
theorem Only.respected_open {kinds : List OpKind} (h : Only kinds t)
    (hk : .provider ∉ kinds := by decide) : providerSession.Respected true t :=
  Session.respected_open (fun _ he => (session_eq_false (h.kind_ne he hk)).2)

theorem session_openTrace : providerSession.Respected false Controller.openTrace ∧
    providerSession.after false Controller.openTrace = true := by
  decide

theorem session_releaseTrace (bars : PciBarState) :
    providerSession.Respected b (PciBars.releaseTrace bars) ∧
      providerSession.after b (PciBars.releaseTrace bars) = b :=
  ⟨(PciBars.only_releaseTrace bars).respected, (PciBars.only_releaseTrace bars).session_after⟩

/-- The exits of `start` disable the device after they closed it. -/
theorem not_respected_failTrace (bars : PciBarState) :
    ¬ providerSession.Respected b (Controller.failTrace bars) ∧
      providerSession.after b (Controller.failTrace bars) = false := by
  rw [Controller.failTrace, Session.respected_append, Session.after_append,
    (session_releaseTrace bars).2]
  refine ⟨?_, by cases b <;> decide⟩
  rintro ⟨-, h⟩
  revert h
  cases b <;> decide

/-- `stop` closes the device last. -/
theorem respected_stopTrace (bars : PciBarState) :
    providerSession.Respected true (Controller.stopTrace bars) ∧
      providerSession.after true (Controller.stopTrace bars) = false := by
  rw [Controller.stopTrace, Session.respected_append, Session.after_append,
    (session_releaseTrace bars).2]
  exact ⟨⟨(session_releaseTrace bars).1, by decide⟩, by decide⟩

/-! ## start -/

/--
The answers `t` to a `start` describe a device on which it succeeds once it is open: it offers a
memory BAR and a resource that can be mapped, and if it is an 88W8897, BAR 0 of the table passes
the check for every register of the profile.
-/
def Usable (t : List DeviceEvent) : Prop :=
  ∀ u v vendorId deviceId table, t = Controller.openTrace ++ u ++ v →
    Runs Controller.survey u (vendorId, deviceId, table) →
    PciBars.Mappable table ∧
      (vendorId = kVendorIdMarvell88W8897 ∧ deviceId = kDeviceIdMarvell88W8897 →
        ∀ reg ∈ Bringup.sanityRegisters Transport.pcie8897Profile,
          PciBars.isMmioAccessValid
            (PciBars.associateFallback (PciBars.associateExact table)) 0 reg 4 = true)

/-- The profile is the one of the 88W8897, for this device alone. -/
theorem getPcieProfile_profileFor {vendorId deviceId : UInt16} {profile : TransportPcieProfile} :
    Transport.getPcieProfile (Controller.profileFor vendorId deviceId) = some profile ↔
      (vendorId = kVendorIdMarvell88W8897 ∧ deviceId = kDeviceIdMarvell88W8897) ∧
        profile = Transport.pcie8897Profile := by
  unfold Controller.profileFor Transport.configurePcieProfile
  by_cases hids : vendorId = kVendorIdMarvell88W8897 ∧ deviceId = kDeviceIdMarvell88W8897
  · rw [if_neg (by simp [hids])]
    exact ⟨fun h => ⟨hids, (Option.some.inj h).symm⟩, fun h => congrArg some h.2.symm⟩
  · rw [if_pos (by simpa [imp_iff_not_or] using hids)]
    exact iff_of_false (by simp [Transport.getPcieProfile]) (fun h => hids h.1)

/-- What a survey found out about the device is determined by the answers. -/
theorem survey_unique {u u' v v' : List DeviceEvent} {i i' : UInt16 × UInt16 × PciBarState}
    (h : Runs Controller.survey u i) (h' : Runs Controller.survey u' i')
    (he : Controller.openTrace ++ u ++ v = Controller.openTrace ++ u' ++ v') : i = i' := by
  rw [List.append_assoc, List.append_assoc] at he
  exact (h.prefix_unique h' (List.append_cancel_left he)).2.1

/-- `start` keeps to its session exactly if the device is usable, and is open iff it succeeded. -/
theorem session_start {ok : Bool} (h : Controller.StartExit host c t (ok, c')) :
    (providerSession.Respected false t ↔ Usable t) ∧ providerSession.after false t = ok := by
  cases h with
  | superFailed =>
    refine ⟨iff_of_true (by decide) ?_, by decide⟩
    intro u v _ _ _ he
    simp [Controller.openTrace] at he
  | castFailed =>
    refine ⟨iff_of_true (by decide) ?_, by decide⟩
    intro u v _ _ _ he
    simp [Controller.openTrace] at he
  | openFailed =>
    refine ⟨iff_of_true (by decide) ?_, by decide⟩
    intro u v _ _ _ he
    simp [Controller.openTrace] at he
  | @mapFailed tp _ _ bars _ hinspect _ =>
    rw [Session.respected_append]
    refine ⟨iff_of_false ?_ ?_, ?_⟩
    · rintro ⟨-, hfail⟩
      exact (not_respected_failTrace bars).1 hfail
    · intro husable
      obtain ⟨u, w, table, rfl, hsurvey, hiff, -⟩ := Controller.inspect_survey hinspect
      have hm := (husable u (w ++ Controller.failTrace bars) _ _ table (by simp) hsurvey).1
      exact Bool.false_ne_true (hiff.mpr hm)
    · rw [Session.after_append]
      exact (not_respected_failTrace bars).2
  | @bringupFailed tp tb _ _ bars _ _ _ hinspect hrun _ =>
    rw [Session.respected_append]
    refine ⟨iff_of_false ?_ ?_, ?_⟩
    · rintro ⟨-, hfail⟩
      exact (not_respected_failTrace bars).1 hfail
    · intro husable
      obtain ⟨u, w, table, rfl, hsurvey, -, hbars⟩ := Controller.inspect_survey hinspect
      have hregs := (husable u (w ++ tb ++ Controller.failTrace bars) _ _ table (by simp)
        hsurvey).2
      rw [← hbars rfl] at hregs
      cases hrun with
      | @rejected _ _ _ reg hprofile first _ missed =>
        obtain ⟨hids, rfl⟩ := getPcieProfile_profileFor.mp hprofile
        have hreg := hregs hids reg (by rw [first]; simp)
        exact missed (PciBars.isMmioAccessValid_iff.mp hreg)
    · rw [Session.after_append]
      exact (not_respected_failTrace bars).2
  | @started tp tb _ _ bars _ _ _ hinspect hrun _ =>
    have hbuilt := Controller.inspect_built hinspect
    have hafter : providerSession.after false (Controller.openTrace ++ tp ++ tb) = true := by
      rw [Session.after_append, Session.after_append, session_openTrace.2,
        hbuilt.ops.session_after, hrun.only.session_after]
    refine ⟨iff_of_true ?_ ?_, ?_⟩
    · rw [Session.respected_append, Session.respected_append, Session.respected_append]
      refine ⟨⟨⟨session_openTrace.1, ?_⟩, hrun.only.respected⟩,
        Controller.only_registerService.respected⟩
      rw [session_openTrace.2]
      exact hbuilt.ops.respected_open
    · intro u' v' _ _ table' he hsurvey'
      obtain ⟨u, w, table, rfl, hsurvey, hiff, hbars⟩ := Controller.inspect_survey hinspect
      -- the answers determine the survey, so the table is the one that was mapped
      have hi := survey_unique hsurvey hsurvey' (v := w ++ tb ++ [⟨.registerService, ()⟩])
        (by rw [← he]; simp)
      obtain ⟨rfl, rfl, rfl⟩ : _ ∧ _ ∧ table = table' := by simpa using hi
      rw [← hbars rfl]
      refine ⟨hiff.mp rfl, ?_⟩
      intro hids reg hreg
      cases hrun with
      | noProfile hprofile =>
        rw [getPcieProfile_profileFor.mpr ⟨hids, rfl⟩] at hprofile
        simp at hprofile
      | completed _ _ hprofile reached =>
        obtain ⟨-, rfl⟩ := getPcieProfile_profileFor.mp hprofile
        exact PciBars.isMmioAccessValid_iff.mpr ⟨_, reached reg hreg⟩
    · rw [Session.after_append, hafter]
      exact Controller.only_registerService.session_after

/-! ## Runs -/

/-- One call, in the session that the calls before it have left. -/
theorem session_step (h : Run platform boot calls s) (hstep : Step platform s r s') :
    (providerSession.Respected s.started r.trace ↔ (r.call = .start → Usable r.trace)) ∧
      providerSession.after s.started r.trace = s'.started := by
  cases hstep with
  | start idle hr =>
    rw [idle]
    obtain ⟨hiff, hafter⟩ := session_start (Controller.runs_start hr)
    exact ⟨by simpa using hiff, hafter⟩
  | stop hr =>
    obtain ⟨⟨hs, bars, rfl⟩ | ⟨hs, rfl⟩, -⟩ := stop_of_run h hr
    · rw [hs]
      exact ⟨iff_of_true (respected_stopTrace bars).1 (by simp), (respected_stopTrace bars).2⟩
    · rw [hs]
      exact ⟨iff_of_true Controller.only_superStop.respected (by simp),
        Controller.only_superStop.session_after⟩
  | externalMethod hr =>
    have hu := (runs_call hr).frame.2
    exact ⟨iff_of_true hu.respected (by simp), hu.session_after⟩

/--
In every run, each request that needs the provider open is made between a successful `open` and the
matching `close`, exactly if every `start` that opened the provider found a usable device.
-/
theorem ownership_respected_iff (h : Run platform boot calls s) :
    providerSession.Respected false (traceOf calls) ↔
      ∀ r ∈ calls, r.call = .start → Usable r.trace := by
  have key : (providerSession.Respected false (traceOf calls) ↔
      ∀ r ∈ calls, r.call = .start → Usable r.trace) ∧
      providerSession.after false (traceOf calls) = s.started := by
    refine h.invariant (I := fun calls s => (providerSession.Respected false (traceOf calls) ↔
      ∀ r ∈ calls, r.call = .start → Usable r.trace) ∧
      providerSession.after false (traceOf calls) = s.started) ⟨by simp [Session.Respected], rfl⟩ ?_
    rintro calls s r s' hrun ⟨hiff, hafter⟩ hstep
    obtain ⟨hiff', hafter'⟩ := session_step hrun hstep
    rw [traceOf_append, traceOf_singleton, Session.respected_append, Session.after_append, hafter,
      hiff, hiff']
    refine ⟨?_, hafter'⟩
    simp [or_imp, forall_and]
  exact key.1

/-- An 88W8897 whose BARs are mapped is usable, and it is closed last. -/
theorem ownership_respected_start_stop :
    let r := play littleEndianPlatform device8897.environment [] boot [.start, .stop]
    providerSession.Respected false (traceOf r.1) ∧
      ∀ record ∈ r.1, record.call = .start → Usable record.trace := by
  intro r
  have hrespected : providerSession.Respected false (traceOf r.1) := by decide +kernel
  exact ⟨hrespected, (ownership_respected_iff (run_play [] boot [.start, .stop])).mp hrespected⟩

/-- None of the memory of this device can be mapped: it is closed, and then disabled. -/
theorem ownership_violated :
    let device : Device := { device8897 with memory := [none, none] }
    let r := play littleEndianPlatform device.environment [] boot [.start]
    Run littleEndianPlatform boot r.1 r.2 ∧ ¬ providerSession.Respected false (traceOf r.1) :=
  ⟨run_play [] boot [.start], by decide +kernel⟩

end MarvellW8897
