import MarvellW8897.Properties.Polling

/-!
# The bring-up record

The helpers share one result record and overwrite parts of it.

* `HelperCall.exit` — what one helper call does to the record.
* `pollIterations_eq_zero_iff`, `failureReason_eq_none_iff` — what the record keeps of a history.
* `record_describes_iff` — when the record describes the latest call, throughout a sequence.
* `rejection_reason` — the reason recorded for a rejected access is a matter of the bar number.
-/

namespace MarvellW8897

open Effect

namespace Bringup

/-! ## Calls of the helpers -/

inductive Helper where
  | pollReg32MaskedEq (mask expected : UInt32)
  | pollReg32Eq (expected : UInt32)
  | writeReg32AndVerify (value verifyMask : UInt32)

/-- The bits that the helper compares. -/
def Helper.mask : Helper → UInt32
  | .pollReg32MaskedEq mask _ => mask
  | .pollReg32Eq _ => 0xFFFFFFFF
  | .writeReg32AndVerify _ verifyMask => verifyMask

/-- What they must be. -/
def Helper.expected : Helper → UInt32
  | .pollReg32MaskedEq _ expected => expected
  | .pollReg32Eq expected => expected
  | .writeReg32AndVerify value verifyMask => value &&& verifyMask

/-- A call of a helper, with the table it is given and the answers it gets. -/
structure HelperCall where
  helper : Helper
  pciBars : PciBarState
  barIndex : UInt32
  offset : UInt32
  maxPolls : UInt32
  delayUsec : UInt32
  /-- What the loads of the call give, in order. -/
  raw : Nat → UInt32
  /-- The answers to everything else. -/
  rest : Environment

namespace HelperCall

variable (host : ByteOrder) (call : HelperCall)

def program (result : BringupResult) : DeviceM (Bool × BringupResult) :=
  match call.helper with
  | .pollReg32MaskedEq mask expected =>
    pollReg32MaskedEq host call.pciBars result call.barIndex call.offset mask expected
      call.maxPolls call.delayUsec
  | .pollReg32Eq expected =>
    pollReg32Eq host call.pciBars result call.barIndex call.offset expected call.maxPolls
      call.delayUsec
  | .writeReg32AndVerify value verifyMask =>
    writeReg32AndVerify host call.pciBars result call.barIndex call.offset value verifyMask
      call.maxPolls call.delayUsec

/-- The call on the record `result`: its requests, whether it succeeds, and the record it leaves. -/
def perform (result : BringupResult) : List DeviceEvent × Bool × BringupResult :=
  (call.program host result).exec (feed call.raw call.rest) []

/-- The record left by the call on `result` describes it. -/
def Describes (result : BringupResult) : Prop :=
  (call.perform host result).2.2.pollIterations.toNat = loadCount (call.perform host result).1 ∧
  ((call.perform host result).2.2.failureReason = .none ↔ (call.perform host result).2.1 = true)

/-- The call has no load to make: its access is rejected, or it may not poll. -/
def Idle : Prop :=
  (¬ ∃ w, PciBars.Access call.pciBars call.barIndex call.offset w) ∨ call.maxPolls = 0

/-- One of the answers that the call may look at is the one it waits for. -/
def Finds : Prop :=
  (∃ w, PciBars.Access call.pciBars call.barIndex call.offset w) ∧
    ∃ i < call.maxPolls.toNat, ¬ Misses host call.helper.mask call.helper.expected (call.raw i)

end HelperCall

/-- The record after the calls, from `reset` on. -/
def recordAfter (host : ByteOrder) (calls : List HelperCall) : BringupResult :=
  calls.foldl (fun result call => (call.perform host result).2.2) (reset {})

/-! ## One call -/

variable {host : ByteOrder} {call : HelperCall} {result : BringupResult}

/-- What one call does to the two fields. -/
structure Outcome (host : ByteOrder) (call : HelperCall) (result : BringupResult)
    (t : List DeviceEvent) (r : Bool × BringupResult) : Prop where
  succeeds : r.1 = true ↔ call.Finds host
  kept : call.Finds host → r.2.failureReason = result.failureReason
  failed : ¬ call.Finds host → r.2.failureReason ≠ .none
  stale : call.Idle → loadCount t = 0 ∧ r.2.pollIterations = result.pollIterations
  counted : ¬ call.Idle → loadCount t ≠ 0 ∧ r.2.pollIterations.toNat = loadCount t

theorem rejectionReason_ne_none (barIndex : UInt32) : rejectionReason barIndex ≠ .none := by
  unfold rejectionReason
  split
  · simp
  · split <;> simp

/-- A rejected call. -/
theorem outcome_rejected
    (hn : ¬ ∃ w, PciBars.Access call.pciBars call.barIndex call.offset w) :
    Outcome host call result [] (false, recordRejection result call.barIndex call.offset) where
  succeeds := iff_of_false (by simp) (fun hf => hn hf.1)
  kept hf := absurd hf.1 hn
  failed _ := rejectionReason_ne_none call.barIndex
  stale _ := ⟨rfl, rfl⟩
  counted hidle := absurd (Or.inl hn) hidle

/-- A poll, whatever the record held before. -/
theorem StreamExit.outcome {t : List DeviceEvent} {r : Bool × BringupResult}
    (h : StreamExit host call.pciBars result call.barIndex call.offset call.helper.mask
      call.helper.expected call.maxPolls call.delayUsec call.raw t r) :
    Outcome host call result t r := by
  cases h with
  | rejected missed => exact outcome_rejected missed
  | @hit w i reached before found within =>
    have hfinds : call.Finds host := ⟨⟨w, reached⟩, i, within, found⟩
    have hbusy : ¬ call.Idle := by
      rintro (hn | hz)
      · exact hn ⟨w, reached⟩
      · rw [hz] at within
        exact absurd within (Nat.not_lt_zero i)
    have hlt : call.maxPolls.toNat < UInt32.size := call.maxPolls.toNat_lt
    refine ⟨iff_of_true rfl hfinds, fun _ => rfl, fun hn => absurd hfinds hn,
      fun hidle => absurd hidle hbusy, fun _ => ?_⟩
    rw [loadCount_pollTrace, length_firstValues]
    exact ⟨Nat.succ_ne_zero i, UInt32.toNat_ofNat_of_lt' (by omega)⟩
  | @timedOut w reached before =>
    have hmisses : ¬ call.Finds host := by
      rintro ⟨-, i, hi, hfound⟩
      exact hfound (before i hi)
    refine ⟨iff_of_false (by simp) hmisses, fun hf => absurd hf hmisses, fun _ => by
      simp [recordTimeout], ?_, ?_⟩
    · rintro (hn | hz)
      · exact absurd ⟨w, reached⟩ hn
      · rw [hz]
        exact ⟨rfl, rfl⟩
    · intro hbusy
      have hmax : call.maxPolls ≠ 0 := fun hz => hbusy (Or.inr hz)
      rw [loadCount_pollTrace, length_firstValues, recordPolls_firstValues hmax]
      exact ⟨(maxPolls_pos hmax).ne', rfl⟩

/-- The store in front of the poll and the reason given behind it change nothing of this. -/
theorem Outcome.settle {t : List DeviceEvent} {r : Bool × BringupResult} {value : UInt32}
    {w : Window MmioPtr} (h : Outcome host call
      (recordWrite result call.barIndex call.offset value) t r) :
    Outcome host call result (storeOf host w.base call.offset value :: t) (settle r) := by
  have hcount : loadCount (storeOf host w.base call.offset value :: t) = loadCount t := by
    rw [← List.singleton_append, loadCount_append]
    exact Nat.zero_add _
  obtain ⟨ok, r⟩ := r
  cases ok with
  | true =>
    refine ⟨h.succeeds, h.kept, h.failed, ?_, ?_⟩
    · rw [hcount]
      exact h.stale
    · rw [hcount]
      exact h.counted
  | false =>
    have hmisses : ¬ call.Finds host := fun hf => by simpa using h.succeeds.mpr hf
    refine ⟨iff_of_false (by simp [Bringup.settle]) hmisses, fun hf => absurd hf hmisses,
      fun _ => by simp [Bringup.settle], ?_, ?_⟩
    · rw [hcount]
      exact h.stale
    · rw [hcount]
      exact h.counted

/-- What a helper call does to the record. -/
theorem HelperCall.outcome (host : ByteOrder) (call : HelperCall) (result : BringupResult) :
    Outcome host call result (call.perform host result).1 (call.perform host result).2 := by
  obtain ⟨helper, pciBars, barIndex, offset, maxPolls, delayUsec, raw, rest⟩ := call
  cases helper with
  | pollReg32MaskedEq mask expected => exact (exec_pollReg32MaskedEq raw rest).outcome
  | pollReg32Eq expected => exact (exec_pollReg32MaskedEq raw rest).outcome
  | writeReg32AndVerify value verifyMask =>
    rcases exec_writeReg32AndVerify host pciBars result barIndex offset value verifyMask maxPolls
      delayUsec raw rest with
      ⟨missed, he⟩ | ⟨w, t, r, -, hexit, he⟩
    · unfold HelperCall.perform
      dsimp only [HelperCall.program]
      rw [he]
      exact outcome_rejected missed
    · unfold HelperCall.perform
      dsimp only [HelperCall.program]
      rw [he]
      exact Outcome.settle (StreamExit.outcome hexit)

/-! ## A sequence of calls -/

theorem recordAfter_snoc (host : ByteOrder) (calls : List HelperCall) (call : HelperCall) :
    recordAfter host (calls ++ [call]) = (call.perform host (recordAfter host calls)).2.2 := by
  simp [recordAfter]

/-- The count stays zero until a call makes a load, and is never zero again. -/
theorem pollIterations_eq_zero_iff (host : ByteOrder) (calls : List HelperCall) :
    (recordAfter host calls).pollIterations.toNat = 0 ↔ ∀ call ∈ calls, call.Idle := by
  induction calls using List.reverseRecOn with
  | nil => simp [recordAfter, reset]
  | append_singleton calls call ih =>
    have ho := call.outcome host (recordAfter host calls)
    rw [recordAfter_snoc, List.forall_mem_append, List.forall_mem_singleton, ← ih]
    by_cases hidle : call.Idle
    · rw [(ho.stale hidle).2]
      exact (and_iff_left hidle).symm
    · rw [(ho.counted hidle).2]
      exact iff_of_false (ho.counted hidle).1 (fun hall => hidle hall.2)

/-- The reason is none until a call fails, and is never none again. -/
theorem failureReason_eq_none_iff (host : ByteOrder) (calls : List HelperCall) :
    (recordAfter host calls).failureReason = .none ↔ ∀ call ∈ calls, call.Finds host := by
  induction calls using List.reverseRecOn with
  | nil => simp [recordAfter, reset]
  | append_singleton calls call ih =>
    have ho := call.outcome host (recordAfter host calls)
    rw [recordAfter_snoc, List.forall_mem_append, List.forall_mem_singleton, ← ih]
    by_cases hfinds : call.Finds host
    · rw [ho.kept hfinds]
      exact (and_iff_left hfinds).symm
    · exact iff_of_false (ho.failed hfinds) (fun hall => hfinds hall.2)

/-- A call on the record of a history is described by the record it leaves. -/
theorem describes_iff (host : ByteOrder) (calls : List HelperCall) (call : HelperCall) :
    call.Describes host (recordAfter host calls) ↔
      (call.Idle → ∀ d ∈ calls, d.Idle) ∧ (call.Finds host → ∀ d ∈ calls, d.Finds host) := by
  have ho := call.outcome host (recordAfter host calls)
  unfold HelperCall.Describes
  rw [← pollIterations_eq_zero_iff host, ← failureReason_eq_none_iff, ho.succeeds]
  refine and_congr ?_ ?_
  · by_cases hidle : call.Idle
    · rw [(ho.stale hidle).1, (ho.stale hidle).2]
      simp [hidle]
    · exact iff_of_true (ho.counted hidle).2 (fun hi => absurd hi hidle)
  · by_cases hfinds : call.Finds host
    · rw [ho.kept hfinds]
      simp [hfinds]
    · exact iff_of_true (iff_of_false (ho.failed hfinds) hfinds) (fun hf => absurd hf hfinds)

/-- A relation between each element and those before it. -/
theorem pairwise_iff_split {α : Type} {R : α → α → Prop} {l : List α} :
    l.Pairwise R ↔ ∀ done x rest, l = done ++ x :: rest → ∀ y ∈ done, R y x := by
  constructor
  · rintro h done x rest rfl y hy
    exact (List.pairwise_append.mp h).2.2 y hy x List.mem_cons_self
  · intro h
    induction l using List.reverseRecOn with
    | nil => exact List.Pairwise.nil
    | append_singleton l a ih =>
      refine List.pairwise_append.mpr ⟨ih ?_, List.pairwise_singleton R a, ?_⟩
      · rintro done x rest rfl
        exact h done x (rest ++ [a]) (by simp)
      · intro y hy b hb
        rw [List.mem_singleton.mp hb]
        exact h l a [] rfl y hy

/--
Throughout a sequence of helper calls that starts from `reset`, the record describes the latest call
exactly if no call without a load comes after one with a load, and no call that finds its value
comes after one that does not.
-/
theorem record_describes_iff (host : ByteOrder) (calls : List HelperCall) :
    (∀ done call rest, calls = done ++ call :: rest →
      call.Describes host (recordAfter host done)) ↔
    calls.Pairwise fun earlier later =>
      (later.Idle → earlier.Idle) ∧ (later.Finds host → earlier.Finds host) := by
  rw [pairwise_iff_split]
  refine forall_congr' fun done => forall_congr' fun call => forall_congr' fun rest =>
    imp_congr_right fun _ => ?_
  rw [describes_iff]
  constructor
  · rintro ⟨hidle, hfinds⟩ earlier hmem
    exact ⟨fun hi => hidle hi earlier hmem, fun hf => hfinds hf earlier hmem⟩
  · intro hall
    exact ⟨fun hi d hd => (hall d hd).1 hi, fun hf d hd => (hall d hd).2 hf⟩

/-- A poll for bit 0 of the firmware status register, whose loads all give `raw`. -/
def statusPoll (maxPolls raw : UInt32) : HelperCall where
  helper := .pollReg32MaskedEq 1 1
  pciBars := mappedTable
  barIndex := 0
  offset := Transport.pcie8897Profile.firmwareStatusReg
  maxPolls
  delayUsec := 0
  raw := fun _ => raw
  rest := device8897.environment

/--
After a poll that timed out, a poll without any load leaves its count, and a poll that succeeds
leaves its reason.
-/
theorem record_not_described :
    ¬ (statusPoll 0 0).Describes .little (recordAfter .little [statusPoll 2 0]) ∧
      ¬ (statusPoll 2 1).Describes .little (recordAfter .little [statusPoll 2 0]) := by
  unfold HelperCall.Describes
  decide +kernel

/-! ## The reason for a rejection -/

/-- BAR number `barIndex` grants some register. -/
def Opens (state : PciBarState) (barIndex : UInt32) : Prop :=
  ∃ offset, PciBars.isMmioAccessValid state barIndex offset 4 = true

/-- The reason names what is wrong with the accesses to BAR number `barIndex`. -/
def NamesCause (state : PciBarState) (barIndex : UInt32) (reason : BringupFailureReason) : Prop :=
  (reason = .invalidOffset → Opens state barIndex) ∧
  (reason = .unsupportedBar0 → barIndex = 0 ∧ ¬ Opens state barIndex) ∧
  (kMaxBars ≤ barIndex.toNat ∨ (barIndex ≠ 0 ∧ ¬ Opens state barIndex) → reason = .invalidBar)

section Reason

variable (barIndex : UInt32)

theorem rejectionReason_eq_invalidBar :
    rejectionReason barIndex = .invalidBar ↔ kMaxBars ≤ barIndex.toNat := by
  unfold rejectionReason
  by_cases hbar : barIndex.toNat ≥ kMaxBars
  · rw [if_pos hbar]
    exact iff_of_true rfl hbar
  · rw [if_neg hbar]
    refine iff_of_false ?_ hbar
    split <;> simp

theorem rejectionReason_eq_unsupportedBar0 :
    rejectionReason barIndex = .unsupportedBar0 ↔ barIndex = 0 := by
  unfold rejectionReason kBringupBarIndex
  by_cases hbar : barIndex.toNat ≥ kMaxBars
  · rw [if_pos hbar]
    refine iff_of_false (by simp) ?_
    rintro rfl
    exact absurd hbar (by decide)
  · rw [if_neg hbar]
    by_cases hz : barIndex = 0
    · simp [hz]
    · simp [hz]

theorem rejectionReason_eq_invalidOffset :
    rejectionReason barIndex = .invalidOffset ↔ barIndex ≠ 0 ∧ barIndex.toNat < kMaxBars := by
  unfold rejectionReason kBringupBarIndex
  by_cases hbar : barIndex.toNat ≥ kMaxBars
  · rw [if_pos hbar]
    refine iff_of_false (by simp) ?_
    omega
  · rw [if_neg hbar]
    by_cases hz : barIndex = 0
    · simp [hz]
    · simp only [hz, if_false, ne_eq, not_false_eq_true, true_and, true_iff]
      omega

end Reason

/--
A rejected access is recorded under the number of its BAR alone: `InvalidBar` out of range,
`UnsupportedBar0` for BAR 0, `InvalidOffset` for the others. So the reason names the cause exactly
if the number is out of range, BAR 0 grants no register, or one of the others grants some.
-/
theorem rejection_reason (host : ByteOrder) {state : PciBarState} {barIndex offset : UInt32}
    (h : PciBars.isMmioAccessValid state barIndex offset 4 = false) :
    (∀ result mask expected maxPolls delayUsec t ok r,
      Runs (pollReg32MaskedEq host state result barIndex offset mask expected maxPolls delayUsec) t
        (ok, r) → r.failureReason = rejectionReason barIndex) ∧
    (∀ result value verifyMask maxPolls delayUsec t ok r,
      Runs (writeReg32AndVerify host state result barIndex offset value verifyMask maxPolls
        delayUsec) t (ok, r) → r.failureReason = rejectionReason barIndex) ∧
    (∀ ts prior t ts' r, Runs (run host state ts prior) t (false, ts', r) →
      r.failureReason = rejectionReason r.lastBarIndex ∧
      PciBars.isMmioAccessValid state r.lastBarIndex r.lastRegisterOffset 4 = false) ∧
    (rejectionReason barIndex = .invalidBar ↔ kMaxBars ≤ barIndex.toNat) ∧
    (rejectionReason barIndex = .unsupportedBar0 ↔ barIndex = 0) ∧
    (rejectionReason barIndex = .invalidOffset ↔ barIndex ≠ 0 ∧ barIndex.toNat < kMaxBars) ∧
    (NamesCause state barIndex (rejectionReason barIndex) ↔ kMaxBars ≤ barIndex.toNat ∨
      (barIndex = 0 ∧ ¬ Opens state 0) ∨ (barIndex ≠ 0 ∧ Opens state barIndex)) := by
  have hmissed : ¬ ∃ w, PciBars.Access state barIndex offset w :=
    PciBars.isMmioAccessValid_eq_false.mp h
  refine ⟨?_, ?_, ?_, rejectionReason_eq_invalidBar barIndex,
    rejectionReason_eq_unsupportedBar0 barIndex, rejectionReason_eq_invalidOffset barIndex, ?_⟩
  · intro result mask expected maxPolls delayUsec t ok r hr
    cases runs_pollReg32MaskedEq hr with
    | rejected _ => rfl
    | hit reached _ _ _ => exact absurd ⟨_, reached⟩ hmissed
    | timedOut reached _ _ => exact absurd ⟨_, reached⟩ hmissed
  · intro result value verifyMask maxPolls delayUsec t ok r hr
    have hexit := runs_writeReg32AndVerify hr
    generalize hp : (ok, r) = p at hexit
    cases hexit with
    | rejected _ =>
      obtain ⟨-, rfl⟩ := hp
      rfl
    | polled reached _ => exact absurd ⟨_, reached⟩ hmissed
  · intro ts prior t ts' r hr
    cases runs_run hr with
    | rejected _ _ _ missed => exact ⟨rfl, PciBars.isMmioAccessValid_eq_false.mpr missed⟩
  · have hbad := rejectionReason_eq_invalidBar barIndex
    have hzero := rejectionReason_eq_unsupportedBar0 barIndex
    have hother := rejectionReason_eq_invalidOffset barIndex
    unfold NamesCause
    rw [hbad, hzero, hother]
    by_cases hbar : kMaxBars ≤ barIndex.toNat
    · have hne : barIndex ≠ 0 := by
        rintro rfl
        exact absurd hbar (by decide)
      refine iff_of_true ⟨fun ho => absurd hbar (Nat.not_le.mpr ho.2), fun hz => absurd hz hne,
        fun _ => hbar⟩ (Or.inl hbar)
    · by_cases hz : barIndex = 0
      · subst hz
        simp
      · simp only [hz, hbar, ne_eq, not_false_eq_true, true_and, false_and, false_or,
          Nat.not_le.mp hbar, imp_false, Classical.not_not, and_self, true_imp_iff]

/-- A rejected poll of BAR 4 of the 88W8897, which is absent. -/
theorem rejection_reason_absent :
    ((pollReg32MaskedEq .little table8897 {} 4 0 1 1 1 0).exec device8897.environment
      []).2.2.failureReason = .invalidOffset := by
  have hrejected : PciBars.isMmioAccessValid table8897 4 0 4 = false := by decide +kernel
  have hreason := rejection_reason .little hrejected
  have hinvalid := hreason.2.2.2.2.2.1.mpr ⟨by decide, by decide⟩
  have hrun := Program.runs_exec device8897.environment []
    (pollReg32MaskedEq .little table8897 {} 4 0 1 1 1 0)
  exact (hreason.1 _ _ _ _ _ _ _ _ hrun).trans hinvalid

/-- `InvalidOffset` is recorded for BAR 4 of the 88W8897, which grants no register at all. -/
theorem reason_not_cause :
    ¬ ∀ before t state, Runs (PciBars.mapDeviceBars true before) t (true, state) →
      ∀ barIndex offset, PciBars.isMmioAccessValid state barIndex offset 4 = false →
      ∀ u r, Runs (pollReg32MaskedEq .little state {} barIndex offset 1 1 1 0) u r →
        NamesCause state barIndex r.2.failureReason := by
  intro h
  have hnames := h {} _ table8897 runs_table8897 4 0 (by decide +kernel) _ _
    (Program.runs_exec device8897.environment [] _)
  obtain ⟨offset, hvalid⟩ := hnames.1 (by decide +kernel)
  obtain ⟨w, hw, -⟩ := PciBars.isMmioAccessValid_iff.mp hvalid
  have hnone : (PciBars.window table8897 4).isNone = true := by decide +kernel
  rw [hw] at hnone
  simp at hnone

end Bringup

end MarvellW8897
