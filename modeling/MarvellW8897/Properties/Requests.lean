import MarvellW8897.Properties.Lifecycle

/-!
# Requests of the user client

* `externalMethod_atomic` — a call that fails leaves no trace.
* `request_faithful_iff` — the handlers narrow their 64-bit inputs: exactly which requests are
  answered as they were made.
-/

namespace MarvellW8897

open Effect

variable {platform : Platform} {c c' : Controller} {selector : UInt32}
  {args : ExternalMethodArguments} {t : List DeviceEvent} {reply : Reply}

/-! ## Failing calls -/

/--
A call that does not succeed makes no access, changes nothing and writes no scalar; a write with
flush that succeeds is one store and one load of the same register, and returns what was loaded.
-/
theorem externalMethod_atomic (h : Runs (externalMethod platform c selector args) t (reply, c')) :
    (reply.ret ≠ kIOReturnSuccess → mmio t = [] ∧ c' = c ∧ reply.scalarOutput = []) ∧
    (selector = 6 → reply.ret = kIOReturnSuccess → ∃ (reg : MmioPtr) (offset value raw : UInt32),
      mmio t = [⟨.store reg offset value, ()⟩, ⟨.load reg offset, raw⟩] ∧
      reply.scalarOutput = [(osSwapLittleToHostInt32 platform.host raw).toUInt64]) := by
  cases runs_call h with
  | failed hret => exact ⟨fun _ => ⟨rfl, rfl, rfl⟩, fun _ hs => absurd hs hret⟩
  | reported hpassive _ => exact ⟨fun hn => absurd rfl hn, fun hs => by simp [hs] at hpassive⟩
  | read _ hselector _ => exact ⟨fun hn => absurd rfl hn, fun hs => by simp [hs] at hselector⟩
  | written hselector _ => exact ⟨fun hn => absurd rfl hn, fun hs => by simp [hs] at hselector⟩
  | flushed raw _ _ => exact ⟨fun hn => absurd rfl hn, fun _ _ => ⟨_, _, _, raw, rfl, rfl⟩⟩

/-- The arguments of a register write. -/
def writeArguments (bar offset value : UInt64) (outputs : UInt32) : ExternalMethodArguments where
  scalarInput := [bar, offset, value]
  scalarOutputCount := outputs

theorem externalMethod_atomic_before_start :
    let r := (externalMethod littleEndianPlatform {} 6 (writeArguments 0 0 1 1)).exec
      device8897.environment []
    r.2.1.ret = kIOReturnBadArgument ∧ mmio r.1 = [] :=
  ⟨rfl, ((externalMethod_atomic (Program.runs_exec device8897.environment []
    (externalMethod littleEndianPlatform {} 6 (writeArguments 0 0 1 1)))).1 (by decide)).1⟩

/-! ## What a request names -/

/-- The selectors whose handlers take a BAR. -/
def barSelectors : List UInt32 := [1, 2, 3, 4, 6]

/--
A successful call reported, or accessed, exactly what the numbers `bar`, `offset` and `value` name;
`out` is what it returned.
-/
inductive Honours (host : ByteOrder) (state : PciBarState) (selector : UInt32)
    (bar offset value : Nat) (t : List DeviceEvent) (out : List UInt64) : Prop where
  | record {b : Fin kMaxBars} (hselector : selector ∈ [1, 4]) (hbar : bar = b.val)
      (hout : PciBars.barInfoFields (UInt32.ofNat b.val) (state.bars b) <+: out)
  | load {barIndex off raw : UInt32} {w : Window MmioPtr} (hselector : selector = 2)
      (hbar : bar = barIndex.toNat) (hoff : offset = off.toNat)
      (hw : PciBars.window state barIndex = some w) (ht : mmio t = [⟨.load w.base off, raw⟩])
  | store {barIndex off v : UInt32} {w : Window MmioPtr} (hselector : selector = 3)
      (hbar : bar = barIndex.toNat) (hoff : offset = off.toNat) (hv : value = v.toNat)
      (hw : PciBars.window state barIndex = some w)
      (ht : mmio t = [⟨.store w.base off (osSwapHostToLittleInt32 host v), ()⟩])
  | flush {barIndex off v raw : UInt32} {w : Window MmioPtr} (hselector : selector = 6)
      (hbar : bar = barIndex.toNat) (hoff : offset = off.toNat) (hv : value = v.toNat)
      (hw : PciBars.window state barIndex = some w)
      (ht : mmio t = [⟨.store w.base off (osSwapHostToLittleInt32 host v), ()⟩,
        ⟨.load w.base off, raw⟩])

/-- Every scalar of the request fits in 32 bits. -/
def Fits (args : ExternalMethodArguments) : Prop := ∀ x ∈ args.scalarInput, x.toNat < UInt32.size

/-- A call is answered as it was made: what it names in full, or not at all. -/
def Faithful (platform : Platform) (c : Controller) (selector : UInt32)
    (args : ExternalMethodArguments) : Prop :=
  ∀ t reply c', Runs (externalMethod platform c selector args) t (reply, c') →
    (reply.ret = kIOReturnSuccess → Honours platform.host c.fPciBarState selector
      (args.scalar 0).toNat (args.scalar 1).toNat (args.scalar 2).toNat t reply.scalarOutput) ∧
    (¬ Fits args → reply.ret = kIOReturnBadArgument ∧ mmio t = [])

/-- The narrowed request names no slot, or a register that the table does not grant. -/
def Rejected (c : Controller) (selector : UInt32) (args : ExternalMethodArguments) : Prop :=
  if selector ∈ [1, 4] then kMaxBars ≤ args.bar.toNat
  else PciBars.isMmioAccessValid c.fPciBarState args.bar args.offset Transport.kRegWidth = false

theorem rejected_record_iff (h : selector ∈ [1, 4] := by decide) :
    Rejected c selector args ↔ kMaxBars ≤ args.bar.toNat := by
  rw [Rejected, if_pos h]

theorem rejected_access_iff (h : selector ∉ [1, 4] := by decide) :
    Rejected c selector args ↔
      ¬ ∃ w, PciBars.Access c.fPciBarState args.bar args.offset w := by
  rw [Rejected, if_neg h, PciBars.isMmioAccessValid_eq_false]

/-- A record that was reported is the one of the slot with the narrowed number. -/
theorem honours_record {host : ByteOrder} {b : Fin kMaxBars} {rest : List UInt64}
    (hselector : selector ∈ [1, 4]) (hb : args.bar.toNat = b.val) :
    Honours host c.fPciBarState selector args.bar.toNat args.offset.toNat args.value.toNat t
      (PciBars.barInfoFields args.bar (c.fPciBarState.bars b) ++ rest) := by
  refine Honours.record hselector hb ?_
  rw [← hb, UInt32.ofNat_toNat]
  exact List.prefix_append _ _

theorem getBarInfoLegacy_cases (state : PciBarState) (barIndex : UInt32) :
    (∃ b : Fin kMaxBars, barIndex.toNat = b.val ∧
      PciBars.getBarInfoLegacy state barIndex =
        some (PciBars.barInfoFields barIndex (state.bars b))) ∨
    (kMaxBars ≤ barIndex.toNat ∧ PciBars.getBarInfoLegacy state barIndex = none) := by
  unfold PciBars.getBarInfoLegacy
  split
  · next hb => exact Or.inl ⟨⟨barIndex.toNat, hb⟩, rfl, rfl⟩
  · next hb => exact Or.inr ⟨Nat.not_lt.mp hb, rfl⟩

/-- What happened to the narrowed request: it was rejected, or honoured. -/
theorem narrowed_request (hselector : selector ∈ barSelectors)
    (hadmitted : ∃ i, Admitted selector args i)
    (h : Runs (externalMethod platform c selector args) t (reply, c')) :
    (Rejected c selector args ∧ reply.ret = kIOReturnBadArgument ∧ mmio t = []) ∨
    (¬ Rejected c selector args ∧ reply.ret = kIOReturnSuccess ∧
      Honours platform.host c.fPciBarState selector args.bar.toNat args.offset.toNat
        args.value.toNat t reply.scalarOutput) := by
  obtain ⟨i, hi⟩ := hadmitted
  rw [externalMethod_of_admitted hi] at h
  have hsel : selector = UInt32.ofNat i.val := by rw [← hi.1, UInt32.ofNat_toNat]
  subst hsel
  fin_cases i
  -- the five selectors that take a BAR; the others are excluded
  case «1» =>
    obtain ⟨rfl, he⟩ := runs_pure.mp h
    obtain ⟨hreply, -⟩ := Prod.mk.inj he
    rw [rejected_record_iff]
    rcases getBarInfoLegacy_cases c.fPciBarState args.bar with ⟨b, hb, hinfo⟩ | ⟨hb, hinfo⟩
    · rw [show reply = .success (PciBars.barInfoFields args.bar (c.fPciBarState.bars b) ++ []) by
        rw [hreply, List.append_nil]
        exact congrArg replyOrBadArgument hinfo]
      exact Or.inr ⟨by omega, rfl, honours_record (by decide) hb⟩
    · rw [show reply = { ret := kIOReturnBadArgument } by
        rw [hreply]
        exact congrArg replyOrBadArgument hinfo]
      exact Or.inl ⟨hb, rfl, rfl⟩
  case «2» =>
    rw [rejected_access_iff]
    rcases runs_sReadReg32FromBar.mp h with ⟨w, raw, hw, rfl, he⟩ | ⟨hn, rfl, he⟩
    · obtain ⟨rfl, -⟩ := Prod.mk.inj he
      exact Or.inr ⟨not_not.mpr ⟨w, hw⟩, rfl, Honours.load (by decide) rfl rfl hw.1 rfl⟩
    · obtain ⟨rfl, -⟩ := Prod.mk.inj he
      exact Or.inl ⟨hn, rfl, rfl⟩
  case «3» =>
    rw [rejected_access_iff]
    rcases runs_sWriteReg32ToBar.mp h with ⟨w, hw, rfl, he⟩ | ⟨hn, rfl, he⟩
    · obtain ⟨rfl, -⟩ := Prod.mk.inj he
      exact Or.inr ⟨not_not.mpr ⟨w, hw⟩, rfl, Honours.store (by decide) rfl rfl rfl hw.1 rfl⟩
    · obtain ⟨rfl, -⟩ := Prod.mk.inj he
      exact Or.inl ⟨hn, rfl, rfl⟩
  case «4» =>
    obtain ⟨t₁, out, t₂, rfl, hinfo, hend⟩ := runs_bind.mp h
    obtain ⟨rfl, he⟩ := runs_pure.mp hend
    obtain ⟨rfl, -⟩ := Prod.mk.inj he
    rw [List.append_nil, rejected_record_iff]
    rcases runs_getBarInfoV2 hinfo with ⟨b, address, hb, rfl, -⟩ | ⟨hb, rfl, rfl⟩
    · have hlt := b.isLt
      change args.bar.toNat = b.val at hb
      exact Or.inr ⟨by omega, rfl, honours_record (by decide) hb⟩
    · exact Or.inl ⟨hb, rfl, rfl⟩
  case «6» =>
    rw [rejected_access_iff]
    rcases runs_sWriteReg32ToBarWithFlush.mp h with ⟨w, raw, hw, rfl, he⟩ | ⟨hn, rfl, he⟩
    · obtain ⟨rfl, -⟩ := Prod.mk.inj he
      exact Or.inr ⟨not_not.mpr ⟨w, hw⟩, rfl, Honours.flush (by decide) rfl rfl rfl hw.1 rfl⟩
    · obtain ⟨rfl, -⟩ := Prod.mk.inj he
      exact Or.inl ⟨hn, rfl, rfl⟩
  all_goals exact absurd hselector (by decide)

/-! ## Narrowing -/

theorem toNat_narrowed (hfits : Fits args) (i : Nat) :
    (args.scalar i).toUInt32.toNat = (args.scalar i).toNat := by
  have hlt : (args.scalar i).toNat < UInt32.size := by
    unfold ExternalMethodArguments.scalar
    rw [List.getD_eq_getElem?_getD]
    cases hx : args.scalarInput[i]? with
    | none => decide
    | some x => exact hfits x (List.mem_of_getElem? hx)
  rw [UInt64.toNat_toUInt32]
  exact Nat.mod_eq_of_lt hlt

/--
A request with admissible counts is answered as it was made exactly if its scalars fit in 32 bits,
or what is left of them after narrowing is rejected.
-/
theorem request_faithful_iff (hselector : selector ∈ barSelectors)
    (hadmitted : ∃ i, Admitted selector args i) :
    Faithful platform c selector args ↔ Fits args ∨ Rejected c selector args := by
  constructor
  · intro hfaithful
    by_contra hn
    rw [not_or] at hn
    -- some environment answers the call, and then it succeeds
    have hr := Program.runs_exec device8897.environment []
      (externalMethod platform c selector args)
    rcases narrowed_request hselector hadmitted hr with ⟨hrej, -⟩ | ⟨-, hok, -⟩
    · exact hn.2 hrej
    · have hbad := ((hfaithful _ _ _ hr).2 hn.1).1
      rw [hok] at hbad
      exact badArgument_ne_success hbad.symm
  · intro hcond t reply c' hr
    rcases narrowed_request hselector hadmitted hr with ⟨-, hbad, hmmio⟩ | ⟨hnrej, hok, hh⟩
    · refine ⟨?_, fun _ => ⟨hbad, hmmio⟩⟩
      intro hok
      rw [hbad] at hok
      exact absurd hok badArgument_ne_success
    · have hfits : Fits args := hcond.resolve_right hnrej
      refine ⟨fun _ => ?_, fun hnot => absurd hfits hnot⟩
      unfold ExternalMethodArguments.bar ExternalMethodArguments.offset
        ExternalMethodArguments.value at hh
      rw [toNat_narrowed hfits, toNat_narrowed hfits, toNat_narrowed hfits] at hh
      exact hh

theorem request_faithful_small :
    let s := (play littleEndianPlatform device8897.environment [] boot [.start]).2
    Faithful littleEndianPlatform s.controller 2 (readArguments 0 0x44) :=
  (request_faithful_iff (by decide) ⟨2, rfl, by decide⟩).mpr
    (Or.inl (by simp [Fits, readArguments, UInt32.size]))

/-- The read of BAR 2^32 succeeds on a started instance, as a read of BAR 0. -/
theorem request_not_faithful_aliased :
    let r := play littleEndianPlatform device8897.environment [] boot [.start]
    Run littleEndianPlatform boot r.1 r.2 ∧
      ¬ Faithful littleEndianPlatform r.2.controller 2 (readArguments 0x100000000 0x44) := by
  refine ⟨run_play [] boot [.start], ?_⟩
  intro hfaithful
  have hr := Program.runs_exec device8897.environment []
    (externalMethod littleEndianPlatform (play littleEndianPlatform device8897.environment [] boot
      [.start]).2.controller 2 (readArguments 0x100000000 0x44))
  have hbad := ((hfaithful _ _ _ hr).2 (by simp [Fits, readArguments, UInt32.size])).1
  exact absurd hbad (by decide +kernel)

end MarvellW8897
