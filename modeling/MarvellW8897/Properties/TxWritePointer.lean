import MarvellW8897.Properties.Requests

/-!
# The TX write pointer

`txRingWritePtr` is exported as the TX ring's write pointer. It is set by every successful write
with flush, whatever the register, and by no plain write.

* `txWritePointer_tracks_iff` — exactly which runs of requests keep it equal to what was last
  written to the register.
-/

namespace MarvellW8897

open Effect

variable {platform : Platform} {s s' s₀ s₁ : System} {calls : List CallRecord} {r : CallRecord}
  {t : List DeviceEvent} {c c' : Controller} {selector : UInt32} {args : ExternalMethodArguments}
  {reply : Reply}

/-! ## What was written -/

/-- The request is for the register `reg` of BAR 0, after narrowing. -/
def AtRegister (reg : UInt32) (args : ExternalMethodArguments) : Prop :=
  args.bar = Bringup.kBringupBarIndex ∧ args.offset = reg

instance (reg : UInt32) (args : ExternalMethodArguments) : Decidable (AtRegister reg args) :=
  inferInstanceAs (Decidable (_ ∧ _))

/-- The value that a call wrote to the register `reg` of BAR 0, if it did. -/
def txWrite (reg : UInt32) (r : CallRecord) : Option UInt32 :=
  match r.call, r.outcome with
  | .externalMethod selector args, .returned reply =>
    if selector ∈ [3, 6] ∧ reply.ret = kIOReturnSuccess ∧ AtRegister reg args then some args.value
    else none
  | _, _ => none

/-- The value that a call left in `txRingWritePtr`, if it did. -/
def recorded (r : CallRecord) : Option UInt32 :=
  match r.call, r.outcome with
  | .externalMethod selector args, .returned reply =>
    if selector = 6 ∧ reply.ret = kIOReturnSuccess then some args.value else none
  | _, _ => none

/-- The value last written to the register `reg` of BAR 0, and 0 if there was none. -/
def lastTxWrite (reg : UInt32) (calls : List CallRecord) : UInt32 :=
  settingAfter (txWrite reg) 0 calls

/-! ## Calls -/

/-- The driver accepts the write that the request makes after narrowing. -/
def AcceptsWrite (bars : PciBarState) (selector : UInt32) (args : ExternalMethodArguments) : Prop :=
  (∃ i, Admitted selector args i) ∧
    PciBars.isMmioAccessValid bars args.bar args.offset Transport.kRegWidth = true

theorem success_iff_acceptsWrite (hselector : selector ∈ [3, 6])
    (h : Runs (externalMethod platform c selector args) t (reply, c')) :
    reply.ret = kIOReturnSuccess ↔ AcceptsWrite c.fPciBarState selector args := by
  have hrej : Rejected c selector args ↔
      PciBars.isMmioAccessValid c.fPciBarState args.bar args.offset Transport.kRegWidth =
        false := by
    rw [Rejected, if_neg]
    revert hselector
    simp only [List.mem_cons, List.not_mem_nil, or_false]
    rintro (rfl | rfl) <;> decide
  by_cases hadm : ∃ i, Admitted selector args i
  · have hmem : selector ∈ barSelectors := by
      revert hselector
      simp only [List.mem_cons, List.not_mem_nil, or_false]
      rintro (rfl | rfl) <;> decide
    rcases narrowed_request hmem hadm h with ⟨hr, hbad, -⟩ | ⟨hr, hok, -⟩
    · refine iff_of_false (by rw [hbad]; exact badArgument_ne_success) ?_
      rintro ⟨-, hv⟩
      rw [hrej.mp hr] at hv
      simp at hv
    · refine iff_of_true hok ⟨hadm, ?_⟩
      rw [hrej] at hr
      simpa using hr
  · obtain ⟨-, ret, hret, he⟩ := runs_externalMethod_refused hadm h
    obtain ⟨rfl, -⟩ := Prod.mk.inj he
    exact iff_of_false hret (fun hacc => hadm hacc.1)

/-- A call leaves in `txRingWritePtr` what it recorded. -/
theorem txRingWritePtr_call (h : CallExit platform c selector args t (reply, c')) :
    c'.fTransportState.txRingWritePtr =
      (recorded ⟨.externalMethod selector args, t, .returned reply⟩).getD
        c.fTransportState.txRingWritePtr := by
  cases h with
  | failed hret => simp [recorded, hret]
  | reported hpassive _ =>
    have hne : selector ≠ 6 := fun he => by simp [he] at hpassive
    simp [recorded, hne]
  | read _ hselector _ => simp [recorded, hselector]
  | written hselector _ => simp [recorded, hselector]
  | flushed _ hselector _ => simp [recorded, hselector, Reply.success]

/-- Along the calls of a user client: the table stays, and the pointer is what was recorded last. -/
theorem txRingWritePtr_run (h : Run platform s₁ calls s)
    (hcalls : ∀ r ∈ calls, ∃ selector args, r.call = .externalMethod selector args) :
    s.controller.fPciBarState = s₁.controller.fPciBarState ∧
      s.controller.fTransportState.txRingWritePtr =
        settingAfter recorded s₁.controller.fTransportState.txRingWritePtr calls := by
  induction h with
  | nil => exact ⟨rfl, rfl⟩
  | snoc h hs ih =>
    obtain ⟨hbars, hptr⟩ := ih (fun r hr => hcalls r (by simp [hr]))
    obtain ⟨selector, args, hcall⟩ := hcalls _ (List.mem_append_right _ (List.mem_singleton_self _))
    cases hs with
    | start _ _ => simp at hcall
    | stop _ => simp at hcall
    | externalMethod hr =>
      have hexit := runs_call hr
      refine ⟨hexit.frame.1.fPciBarState.trans hbars, ?_⟩
      rw [settingAfter_snoc, ← hptr]
      exact txRingWritePtr_call hexit

/-- After a successful `start` the pointer is 0. -/
theorem txRingWritePtr_start (h : Step platform s₀ ⟨.start, t, .started true⟩ s₁) :
    s₁.controller.fTransportState.txRingWritePtr = 0 := by
  have hzero : ∀ v d, (Controller.profileFor v d).txRingWritePtr = 0 := by
    intro v d
    unfold Controller.profileFor Transport.configurePcieProfile
    split <;> rfl
  cases h with
  | start _ hr =>
    rcases (Controller.runs_start hr).parts with
      ⟨hf, -⟩ | ⟨-, tp, tb, v, d, bars, ts, result, -, -, -, hrun, hf⟩
    · simp at hf
    · dsimp only
      rw [hf.fTransportState]
      cases hrun with
      | noProfile _ => exact hzero v d
      | completed _ _ _ _ => exact hzero v d

/-! ## Runs of requests -/

/--
The call `r`, after the calls `done`, does not set the pointer apart from the register `reg`: an
accepted write with flush goes to the register or repeats its value, an accepted plain write goes
elsewhere or repeats its value.
-/
def Harmless (bars : PciBarState) (reg : UInt32) (done : List CallRecord) (r : CallRecord) : Prop :=
  ∀ args,
    (r.call = .externalMethod 6 args → AcceptsWrite bars 6 args →
      AtRegister reg args ∨ args.value = lastTxWrite reg done) ∧
    (r.call = .externalMethod 3 args → AcceptsWrite bars 3 args →
      ¬ AtRegister reg args ∨ args.value = lastTxWrite reg done)

theorem harmless_iff {reg : UInt32} {done : List CallRecord} (hstep : Step platform s r s')
    (hbars : s.controller.fPciBarState = s₁.controller.fPciBarState)
    (hcall : ∃ selector args, r.call = .externalMethod selector args) :
    (recorded r).getD (lastTxWrite reg done) = (txWrite reg r).getD (lastTxWrite reg done) ↔
      Harmless s₁.controller.fPciBarState reg done r := by
  cases hstep with
  | start _ _ => simp at hcall
  | stop _ => simp at hcall
  | @externalMethod selector args _ reply _ hr =>
    rw [← hbars]
    -- selector 6 records whatever it wrote, selector 3 records nothing
    by_cases h6 : selector = 6
    · subst h6
      have hacc := success_iff_acceptsWrite (by decide) hr
      by_cases ha : AcceptsWrite s.controller.fPciBarState 6 args
      · by_cases ht : AtRegister reg args <;>
          simp [Harmless, recorded, txWrite, hacc.mpr ha, ha, ht]
      · have hn : reply.ret ≠ kIOReturnSuccess := fun he => ha (hacc.mp he)
        simp [Harmless, recorded, txWrite, hn, ha]
    · by_cases h3 : selector = 3
      · subst h3
        have hacc := success_iff_acceptsWrite (by decide) hr
        by_cases ha : AcceptsWrite s.controller.fPciBarState 3 args
        · by_cases ht : AtRegister reg args <;>
            simp [Harmless, recorded, txWrite, hacc.mpr ha, ha, ht, eq_comm]
        · have hn : reply.ret ≠ kIOReturnSuccess := fun he => ha (hacc.mp he)
          simp [Harmless, recorded, txWrite, hn, ha]
      · simp [Harmless, recorded, txWrite, h3, h6]

/--
Along the requests that follow a successful `start`, field 0 of the transport state is always what
was last written to the TX write pointer register of BAR 0 (or 0), exactly if no request sets the
two apart.
-/
theorem txWritePointer_tracks_iff (hstart : Step platform s₀ ⟨.start, t, .started true⟩ s₁)
    (h : Run platform s₁ calls s)
    (hcalls : ∀ r ∈ calls, ∃ selector args, r.call = .externalMethod selector args) :
    (∀ done rest s', calls = done ++ rest → Run platform s₁ done s' →
      s'.controller.getTransportState[0]? =
        some (lastTxWrite s₁.controller.fTransportState.pcieProfile.txWritePointerReg
          done).toUInt64) ↔
    ∀ done r rest, calls = done ++ r :: rest →
      Harmless s₁.controller.fPciBarState
        s₁.controller.fTransportState.pcieProfile.txWritePointerReg done r := by
  generalize s₁.controller.fTransportState.pcieProfile.txWritePointerReg = reg
  have hfield : ∀ done rest s', calls = done ++ rest → Run platform s₁ done s' →
      (s'.controller.getTransportState[0]? = some (lastTxWrite reg done).toUInt64 ↔
        settingAfter recorded 0 done = settingAfter (txWrite reg) 0 done) := by
    intro done rest s' he hrun
    have hptr := (txRingWritePtr_run hrun (fun r hr => hcalls r (by simp [he, hr]))).2
    rw [txRingWritePtr_start hstart] at hptr
    change some s'.controller.fTransportState.txRingWritePtr.toUInt64 = _ ↔ _
    rw [hptr, Option.some.injEq, UInt32.toUInt64_inj]
    rfl
  -- each call of the run is a step from a state with the table of `s₁`
  have hcall : ∀ done r rest, calls = done ++ r :: rest →
      ((recorded r).getD (lastTxWrite reg done) = (txWrite reg r).getD (lastTxWrite reg done) ↔
        Harmless s₁.controller.fPciBarState reg done r) := by
    intro done r rest he
    rw [he] at h
    obtain ⟨a, ha, hrest⟩ := Path.split h
    obtain ⟨b, hstep, -⟩ := Path.of_cons hrest
    have hbars := (txRingWritePtr_run ha (fun r hr => hcalls r (by simp [he, hr]))).1
    exact harmless_iff hstep hbars (hcalls r (by simp [he]))
  have hparts : (∀ done rest s', calls = done ++ rest → Run platform s₁ done s' →
      s'.controller.getTransportState[0]? = some (lastTxWrite reg done).toUInt64) ↔
      ∀ done rest, calls = done ++ rest →
        settingAfter recorded 0 done = settingAfter (txWrite reg) 0 done := by
    constructor
    · intro htracks done rest he
      have hrun := h
      rw [he] at hrun
      obtain ⟨s', hs', -⟩ := Path.split hrun
      exact (hfield done rest s' he hs').mp (htracks done rest s' he hs')
    · intro hagree done rest s' he hs'
      exact (hfield done rest s' he hs').mpr (hagree done rest he)
  rw [hparts, settingAfter_agree_iff]
  constructor
  · intro hagree done r rest he
    exact (hcall done r rest he).mp (hagree done r rest he)
  · intro hharmless done r rest he
    exact (hcall done r rest he).mpr (hharmless done r rest he)

/-- One write with flush to the register itself. -/
theorem txWritePointer_tracks_write :
    let s := (play littleEndianPlatform device8897.environment [] boot [.start]).2
    let r := play littleEndianPlatform device8897.environment [] s
      [.externalMethod 6 (writeArguments 0 0xC05C 0x10000 1)]
    r.2.controller.getTransportState[0]? = some 0x10000 := by
  intro s r
  have hstart : Step littleEndianPlatform boot ⟨.start,
      ((Controller.start .little {}).exec device8897.environment []).1, .started true⟩ s :=
    Step.start rfl (Program.runs_exec device8897.environment [] (Controller.start .little {}))
  have hcall : ∀ record ∈ r.1,
      record.call = .externalMethod 6 (writeArguments 0 0xC05C 0x10000 1) :=
    fun record hmem => List.mem_singleton.mp (call_mem_of_play hmem)
  have htracks := (txWritePointer_tracks_iff hstart (run_play [] s _)
    (fun record hmem => ⟨_, _, hcall record hmem⟩)).mpr (by
      intro done record rest he args
      have hrecord := hcall record (by rw [he]; simp)
      rw [hrecord]
      refine ⟨?_, by simp⟩
      rintro heq -
      obtain ⟨-, rfl⟩ := Call.externalMethod.inj heq
      exact Or.inl ⟨rfl, rfl⟩)
  exact htracks r.1 [] r.2 (List.append_nil _).symm (run_play [] s _)

/-- A write with flush to the firmware status register is taken for a TX write pointer. -/
theorem txWritePointer_lost :
    let r := play littleEndianPlatform device8897.environment [] boot
      [.start, .externalMethod 6 (writeArguments 0 0xC44 5 1)]
    Run littleEndianPlatform boot r.1 r.2 ∧
      r.2.controller.fTransportState.pcieProfile.txWritePointerReg = 0xC05C ∧
      r.2.controller.getTransportState[0]? = some 5 ∧ lastTxWrite 0xC05C r.1 = 0 := by
  refine ⟨run_play [] boot _, ?_⟩
  decide +kernel

end MarvellW8897
