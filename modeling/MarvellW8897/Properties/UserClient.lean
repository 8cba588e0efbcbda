import Mathlib.Data.Fintype.Basic
import Mathlib.Tactic.FinCases
import MarvellW8897.Kext.UserClient
import MarvellW8897.Spec.Window

/-!
# User-client calls

* `runs_externalMethod` — a call fails without a request, or it is one run of its handler.
* `runs_call` — the five ends of a call: failed, reported, read, written, written and read back.
-/

namespace MarvellW8897

open Effect

variable {platform : Platform} {c : Controller} {selector : UInt32} {args : ExternalMethodArguments}
  {t : List DeviceEvent} {r : Reply × Controller}

/-! ## Dispatch -/

/-- The caller's counts are the ones the selector's dispatch entry asks for. -/
def Admitted (selector : UInt32) (args : ExternalMethodArguments)
    (i : Fin kMarvellMethodCount) : Prop :=
  selector.toNat = i.val ∧ (gDispatchTable i).2.Match args

/-- A call that is admitted is its handler. -/
theorem externalMethod_of_admitted {i : Fin kMarvellMethodCount} (h : Admitted selector args i) :
    externalMethod platform c selector args = (gDispatchTable i).1 platform.host c args := by
  obtain ⟨hi, hm⟩ := h
  have hlt : selector.toNat < kMarvellMethodCount := by rw [hi]; exact i.isLt
  have he : (⟨selector.toNat, hlt⟩ : Fin kMarvellMethodCount) = i := Fin.ext hi
  unfold externalMethod
  rw [dif_pos hlt]
  simp only [he]
  rw [(platform.refuse_none _ _).mpr hm]

/-- A call that is not admitted fails, and asks nothing. -/
theorem runs_externalMethod_refused (h : ¬ ∃ i, Admitted selector args i)
    (hr : Runs (externalMethod platform c selector args) t r) :
    t = [] ∧ ∃ ret, ret ≠ kIOReturnSuccess ∧ r = ({ ret }, c) := by
  unfold externalMethod at hr
  split at hr
  · next hlt =>
    dsimp only at hr
    split at hr
    · next ret hrefuse =>
      obtain ⟨rfl, rfl⟩ := runs_pure.mp hr
      exact ⟨rfl, ret, platform.refuse_error _ _ _ hrefuse, rfl⟩
    · next hnone =>
      exact absurd ⟨⟨selector.toNat, hlt⟩, rfl, (platform.refuse_none _ _).mp hnone⟩ h
  · obtain ⟨rfl, rfl⟩ := runs_pure.mp hr
    exact ⟨rfl, kIOReturnUnsupported, by decide, rfl⟩

theorem runs_externalMethod (hr : Runs (externalMethod platform c selector args) t r) :
    (∃ i, Admitted selector args i ∧ Runs ((gDispatchTable i).1 platform.host c args) t r) ∨
      (t = [] ∧ ∃ ret, ret ≠ kIOReturnSuccess ∧ r = ({ ret }, c)) := by
  by_cases h : ∃ i, Admitted selector args i
  · obtain ⟨i, hi⟩ := h
    rw [externalMethod_of_admitted hi] at hr
    exact Or.inl ⟨i, hi, hr⟩
  · exact Or.inr (runs_externalMethod_refused h hr)

/-- A call that succeeds is one run of the selector's handler. -/
theorem runs_handler {i : Fin kMarvellMethodCount} {reply : Reply} {c' : Controller}
    (h : Runs (externalMethod platform c (UInt32.ofNat i.val) args) t (reply, c'))
    (hret : reply.ret = kIOReturnSuccess) :
    Runs ((gDispatchTable i).1 platform.host c args) t (reply, c') := by
  have hi : (UInt32.ofNat i.val).toNat = i.val :=
    UInt32.toNat_ofNat_of_lt' (lt_trans i.isLt (by decide))
  rcases runs_externalMethod h with ⟨j, ⟨hj, -⟩, hr⟩ | ⟨-, ret, hne, he⟩
  · obtain rfl : j = i := Fin.ext (hj.symm.trans hi)
    exact hr
  · obtain ⟨rfl, -⟩ := Prod.mk.inj he
    exact absurd hret hne

/-! ## The register that a call names -/

/-- `static_cast<uint32_t>(args->scalarInput[0])`. -/
def ExternalMethodArguments.bar (args : ExternalMethodArguments) : UInt32 :=
  (args.scalar 0).toUInt32

/-- `static_cast<uint32_t>(args->scalarInput[1])`. -/
def ExternalMethodArguments.offset (args : ExternalMethodArguments) : UInt32 :=
  (args.scalar 1).toUInt32

/-- `static_cast<uint32_t>(args->scalarInput[2])`. -/
def ExternalMethodArguments.value (args : ExternalMethodArguments) : UInt32 :=
  (args.scalar 2).toUInt32

/-! ## The ends of a call -/

/-- The ends of a call: the requests made, and what is handed back. -/
inductive CallExit (platform : Platform) (c : Controller) (selector : UInt32)
    (args : ExternalMethodArguments) : List DeviceEvent → Reply × Controller → Prop where
  | failed {ret : IOReturn} (hret : ret ≠ kIOReturnSuccess) :
      CallExit platform c selector args [] ({ ret }, c)
  | reported {out : List UInt64} {t : List DeviceEvent} (hpassive : selector ∉ [2, 3, 6])
      (ht : ∀ e ∈ t, ∃ index, e.op = .readPastResources index) :
      CallExit platform c selector args t (.success out, c)
  | read {w : Window MmioPtr} (raw : UInt32) (hselector : selector = 2)
      (hw : PciBars.Access c.fPciBarState args.bar args.offset w) :
      CallExit platform c selector args [⟨.load w.base args.offset, raw⟩]
        (.success [(osSwapLittleToHostInt32 platform.host raw).toUInt64], c)
  | written {w : Window MmioPtr} (hselector : selector = 3)
      (hw : PciBars.Access c.fPciBarState args.bar args.offset w) :
      CallExit platform c selector args
        [⟨.store w.base args.offset (osSwapHostToLittleInt32 platform.host args.value), ()⟩]
        (.success [], c)
  | flushed {w : Window MmioPtr} (raw : UInt32) (hselector : selector = 6)
      (hw : PciBars.Access c.fPciBarState args.bar args.offset w) :
      CallExit platform c selector args
        [⟨.store w.base args.offset (osSwapHostToLittleInt32 platform.host args.value), ()⟩,
          ⟨.load w.base args.offset, raw⟩]
        (.success [(osSwapLittleToHostInt32 platform.host raw).toUInt64],
          { c with fTransportState := { c.fTransportState with txRingWritePtr := args.value } })

theorem badArgument_ne_success : kIOReturnBadArgument ≠ kIOReturnSuccess := by decide

theorem runs_resourcePhysicalAddress {state : PciBarState} {index : UInt32} {address : UInt64}
    (h : Runs (PciBars.resourcePhysicalAddress state index) t address) :
    (∃ i : Fin kMaxResources, index.toNat = i.val ∧ t = [] ∧
      address = (state.resources i).physicalAddress) ∨
    (kMaxResources ≤ index.toNat ∧ t = [⟨.readPastResources index, address⟩]) := by
  unfold PciBars.resourcePhysicalAddress at h
  split at h
  · next hi =>
    obtain ⟨rfl, rfl⟩ := runs_pure.mp h
    exact Or.inl ⟨⟨index.toNat, hi⟩, rfl, rfl, rfl⟩
  · next hi => exact Or.inr ⟨Nat.not_lt.mp hi, runs_ask.mp h⟩

/-- The V2 record: of a slot that names no resource, of one that names one, or of no slot. -/
theorem runs_getBarInfoV2 {state : PciBarState} {barIndex : UInt32} {out : Option (List UInt64)}
    (h : Runs (PciBars.getBarInfoV2 state barIndex) t out) :
    (∃ (b : Fin kMaxBars) (address : UInt64), barIndex.toNat = b.val ∧
      out = some (PciBars.barInfoFields barIndex (state.bars b) ++
        [(state.bars b).mappedResource.toUInt64, (state.bars b).length, address]) ∧
      (((state.bars b).mappedResource = kInvalidResourceIndex ∧ t = [] ∧ address = 0) ∨
        ((state.bars b).mappedResource ≠ kInvalidResourceIndex ∧
          Runs (PciBars.resourcePhysicalAddress state (state.bars b).mappedResource) t address))) ∨
    (kMaxBars ≤ barIndex.toNat ∧ t = [] ∧ out = none) := by
  unfold PciBars.getBarInfoV2 at h
  split at h
  · next hb =>
    dsimp only at h
    split at h
    · next hm =>
      obtain ⟨t₁, address, t₂, rfl, haddr, hend⟩ := runs_bind.mp h
      obtain ⟨rfl, rfl⟩ := runs_pure.mp hend
      rw [List.append_nil]
      exact Or.inl ⟨⟨barIndex.toNat, hb⟩, address, rfl, rfl, Or.inr ⟨by simpa using hm, haddr⟩⟩
    · next hm =>
      obtain ⟨rfl, rfl⟩ := runs_pure.mp h
      exact Or.inl ⟨⟨barIndex.toNat, hb⟩, 0, rfl, rfl, Or.inl ⟨by simpa using hm, rfl, rfl⟩⟩
  · next hb =>
    obtain ⟨rfl, rfl⟩ := runs_pure.mp h
    exact Or.inr ⟨Nat.not_lt.mp hb, rfl, rfl⟩

section Handlers

variable {host : ByteOrder}

/-- A register read succeeds exactly where the BAR's window grants it. -/
theorem runs_sReadReg32FromBar : Runs (sReadReg32FromBar host c args) t r ↔
    (∃ w, ∃ raw : UInt32, PciBars.Access c.fPciBarState args.bar args.offset w ∧
      t = [⟨.load w.base args.offset, raw⟩] ∧
      r = (.success [(osSwapLittleToHostInt32 host raw).toUInt64], c)) ∨
    ((¬ ∃ w, PciBars.Access c.fPciBarState args.bar args.offset w) ∧ t = [] ∧
      r = ({ ret := kIOReturnBadArgument }, c)) := by
  refine runs_bind.trans ?_
  simp only [Controller.readReg32FromBar, Transport.runs_readReg32FromBar, runs_pure]
  constructor
  · rintro ⟨t₁, v, t₂, rfl, ⟨w, raw, hw, rfl, rfl⟩ | ⟨hn, rfl, rfl⟩, rfl, rfl⟩
    · exact Or.inl ⟨w, raw, hw, rfl, rfl⟩
    · exact Or.inr ⟨hn, rfl, rfl⟩
  · rintro (⟨w, raw, hw, rfl, rfl⟩ | ⟨hn, rfl, rfl⟩)
    · exact ⟨_, _, [], (List.append_nil _).symm, Or.inl ⟨w, raw, hw, rfl, rfl⟩, rfl, rfl⟩
    · exact ⟨[], none, [], rfl, Or.inr ⟨hn, rfl, rfl⟩, rfl, rfl⟩

theorem runs_sWriteReg32ToBar : Runs (sWriteReg32ToBar host c args) t r ↔
    (∃ w, PciBars.Access c.fPciBarState args.bar args.offset w ∧
      t = [⟨.store w.base args.offset (osSwapHostToLittleInt32 host args.value), ()⟩] ∧
      r = (.success [], c)) ∨
    ((¬ ∃ w, PciBars.Access c.fPciBarState args.bar args.offset w) ∧ t = [] ∧
      r = ({ ret := kIOReturnBadArgument }, c)) := by
  refine runs_bind.trans ?_
  simp only [Controller.writeReg32ToBar, Transport.runs_writeReg32ToBar, runs_pure]
  constructor
  · rintro ⟨t₁, v, t₂, rfl, ⟨w, hw, rfl, rfl⟩ | ⟨hn, rfl, rfl⟩, rfl, rfl⟩
    · exact Or.inl ⟨w, hw, rfl, rfl⟩
    · exact Or.inr ⟨hn, rfl, rfl⟩
  · rintro (⟨w, hw, rfl, rfl⟩ | ⟨hn, rfl, rfl⟩)
    · exact ⟨_, true, [], (List.append_nil _).symm, Or.inl ⟨w, hw, rfl, rfl⟩, rfl, rfl⟩
    · exact ⟨[], false, [], rfl, Or.inr ⟨hn, rfl, rfl⟩, rfl, rfl⟩

theorem runs_sWriteReg32ToBarWithFlush : Runs (sWriteReg32ToBarWithFlush host c args) t r ↔
    (∃ w, ∃ raw : UInt32, PciBars.Access c.fPciBarState args.bar args.offset w ∧
      t = [⟨.store w.base args.offset (osSwapHostToLittleInt32 host args.value), ()⟩,
        ⟨.load w.base args.offset, raw⟩] ∧
      r = (.success [(osSwapLittleToHostInt32 host raw).toUInt64],
        { c with fTransportState := { c.fTransportState with txRingWritePtr := args.value } })) ∨
    ((¬ ∃ w, PciBars.Access c.fPciBarState args.bar args.offset w) ∧ t = [] ∧
      r = ({ ret := kIOReturnBadArgument }, c)) := by
  refine runs_bind.trans ?_
  simp only [Controller.writeReg32ToBarWithFlush, runs_bind,
    Transport.runs_writeReg32ToBarWithFlush, runs_pure]
  constructor
  · rintro ⟨t₁, v, t₂, rfl,
      ⟨t₃, v', t₄, rfl, ⟨w, raw, hw, rfl, rfl⟩ | ⟨hn, rfl, rfl⟩, rfl, rfl⟩, rfl, rfl⟩
    · exact Or.inl ⟨w, raw, hw, rfl, rfl⟩
    · exact Or.inr ⟨hn, rfl, rfl⟩
  · rintro (⟨w, raw, hw, rfl, rfl⟩ | ⟨hn, rfl, rfl⟩)
    · exact ⟨_, _, [], (List.append_nil _).symm, ⟨_, _, [], (List.append_nil _).symm,
        Or.inl ⟨w, raw, hw, rfl, rfl⟩, rfl, rfl⟩, rfl, rfl⟩
    · exact ⟨[], _, [], rfl, ⟨[], _, [], rfl, Or.inr ⟨hn, rfl, rfl⟩, rfl, rfl⟩, rfl, rfl⟩

end Handlers

/-- Every call takes one of the five ends. -/
theorem runs_call (hr : Runs (externalMethod platform c selector args) t r) :
    CallExit platform c selector args t r := by
  rcases runs_externalMethod hr with ⟨i, ⟨hi, -⟩, h⟩ | ⟨rfl, ret, hret, rfl⟩
  · have hsel : selector = UInt32.ofNat i.val := by
      rw [← hi, UInt32.ofNat_toNat]
    -- one case for each entry of the dispatch table
    fin_cases i
    · obtain ⟨rfl, rfl⟩ := runs_pure.mp h
      exact CallExit.reported (by rw [hsel]; decide) (by simp)
    · obtain ⟨rfl, rfl⟩ := runs_pure.mp h
      cases hinfo : c.getBarInfoLegacy (args.scalar 0).toUInt32 with
      | none => exact CallExit.failed badArgument_ne_success
      | some out => exact CallExit.reported (by rw [hsel]; decide) (by simp)
    · rcases runs_sReadReg32FromBar.mp h with ⟨w, raw, hw, rfl, rfl⟩ | ⟨-, rfl, rfl⟩
      · exact CallExit.read raw hsel hw
      · exact CallExit.failed badArgument_ne_success
    · rcases runs_sWriteReg32ToBar.mp h with ⟨w, hw, rfl, rfl⟩ | ⟨-, rfl, rfl⟩
      · exact CallExit.written hsel hw
      · exact CallExit.failed badArgument_ne_success
    · obtain ⟨t₁, out, t₂, rfl, hinfo, hend⟩ := runs_bind.mp h
      obtain ⟨rfl, rfl⟩ := runs_pure.mp hend
      rw [List.append_nil]
      rcases runs_getBarInfoV2 hinfo with ⟨b, address, -, rfl, hreads⟩ | ⟨-, rfl, rfl⟩
      · refine CallExit.reported (by rw [hsel]; decide) ?_
        rcases hreads with ⟨-, rfl, -⟩ | ⟨-, hreads⟩
        · simp
        · rcases runs_resourcePhysicalAddress hreads with ⟨_, -, rfl, -⟩ | ⟨-, rfl⟩ <;> simp
      · exact CallExit.failed badArgument_ne_success
    · obtain ⟨rfl, rfl⟩ := runs_pure.mp h
      exact CallExit.reported (by rw [hsel]; decide) (by simp)
    · rcases runs_sWriteReg32ToBarWithFlush.mp h with ⟨w, raw, hw, rfl, rfl⟩ | ⟨-, rfl, rfl⟩
      · exact CallExit.flushed raw hsel hw
      · exact CallExit.failed badArgument_ne_success
    · obtain ⟨rfl, rfl⟩ := runs_pure.mp h
      exact CallExit.reported (by rw [hsel]; decide) (by simp)
    · obtain ⟨rfl, rfl⟩ := runs_pure.mp h
      exact CallExit.reported (by rw [hsel]; decide) (by simp)
  · exact CallExit.failed hret

end MarvellW8897
