import Mathlib.Logic.Relation
import MarvellW8897.Properties.BringupRecord

/-!
# The states of the bring-up record

All functions of the bring-up write to one record, and none of them writes both the stage and the
reason every time.

* `RecordStep` — one call of any of them, on any table and with any answers.
* `recordStates_exact` — the pairs of stage and reason that a history of calls can leave.
-/

namespace MarvellW8897

open Effect

namespace Bringup

variable {host : ByteOrder} {result result' : BringupResult} {pciBars : PciBarState}
  {barIndex offset mask expected maxPolls delayUsec value verifyMask : UInt32}
  {t : List DeviceEvent} {ok : Bool}

/-- A call that is handed the record `result` and leaves `result'`. -/
inductive RecordStep (host : ByteOrder) (result : BringupResult) : BringupResult → Prop where
  | reset : RecordStep host result (reset result)
  | validateAccess {pciBars : PciBarState} {barIndex offset : UInt32} :
      RecordStep host result (validateAccess pciBars result barIndex offset).2
  | readAndRecord {pciBars : PciBarState} {barIndex offset : UInt32} {t : List DeviceEvent}
      {value : Option UInt32} {result' : BringupResult}
      (h : Runs (readAndRecord host pciBars result barIndex offset) t (value, result')) :
      RecordStep host result result'
  | pollReg32MaskedEq {pciBars : PciBarState}
      {barIndex offset mask expected maxPolls delayUsec : UInt32} {t : List DeviceEvent}
      {ok : Bool} {result' : BringupResult}
      (h : Runs (pollReg32MaskedEq host pciBars result barIndex offset mask expected maxPolls
        delayUsec) t (ok, result')) : RecordStep host result result'
  | pollReg32Eq {pciBars : PciBarState} {barIndex offset expected maxPolls delayUsec : UInt32}
      {t : List DeviceEvent} {ok : Bool} {result' : BringupResult}
      (h : Runs (pollReg32Eq host pciBars result barIndex offset expected maxPolls delayUsec) t
        (ok, result')) : RecordStep host result result'
  | writeReg32AndVerify {pciBars : PciBarState}
      {barIndex offset value verifyMask maxPolls delayUsec : UInt32} {t : List DeviceEvent}
      {ok : Bool} {result' : BringupResult}
      (h : Runs (writeReg32AndVerify host pciBars result barIndex offset value verifyMask maxPolls
        delayUsec) t (ok, result')) : RecordStep host result result'
  | run {pciBars : PciBarState} {ts ts' : TransportState} {t : List DeviceEvent} {ok : Bool}
      {result' : BringupResult}
      (h : Runs (run host pciBars ts result) t (ok, ts', result')) : RecordStep host result result'

/-- What the record says about how the bring-up stands. -/
def state (result : BringupResult) : BringupStage × BringupFailureReason :=
  (result.stage, result.failureReason)

/-- The pairs that occur: nothing yet, the failures, and the two ends of `run`. -/
def recordStates : List (BringupStage × BringupFailureReason) :=
  [(.notStarted, .none), (.failed, .invalidBar), (.failed, .invalidOffset),
    (.failed, .unsupportedBar0), (.timedOut, .timeout), (.failed, .verifyMismatch),
    (.unsupported, .noTransportProfile), (.unsupported, .noGroundedResetSemantic)]

/-! ## One call -/

theorem state_rejection : state (recordRejection result barIndex offset) ∈ recordStates := by
  unfold recordRejection rejectionReason state
  split
  · simp [recordStates]
  · split <;> simp [recordStates]

theorem state_recordPolls {i : UInt32} (raws : List UInt32) :
    state (recordPolls host i (recordAccess result barIndex offset) raws) = state result := by
  unfold recordPolls
  split <;> rfl

/-- A poll leaves the pair of a rejection, the pair it found, or a timeout. -/
theorem PollExit.state (h : PollExit host pciBars result barIndex offset mask expected maxPolls
    delayUsec t (ok, result')) (hs : state result ∈ recordStates) :
    Bringup.state result' ∈ recordStates := by
  cases h with
  | rejected _ => exact state_rejection
  | hit _ _ _ _ => rwa [state_recordPolls]
  | timedOut _ _ _ => simp [Bringup.state, recordTimeout, recordStates]

theorem VerifyExit.state (h : VerifyExit host pciBars result barIndex offset value verifyMask
    maxPolls delayUsec t (ok, result')) (hs : state result ∈ recordStates) :
    Bringup.state result' ∈ recordStates := by
  generalize hr : (ok, result') = r at h
  cases h with
  | rejected _ =>
    rw [(Prod.mk.inj hr).2]
    exact state_rejection
  | @polled w t r reached poll =>
    obtain ⟨matched, polled⟩ := r
    cases matched with
    | true =>
      rw [(Prod.mk.inj hr).2]
      exact poll.state hs
    | false =>
      rw [(Prod.mk.inj hr).2]
      simp [Bringup.state, recordStates]

theorem RunExit.state {ts ts' : TransportState}
    (h : RunExit host pciBars ts t (ok, ts', result')) : Bringup.state result' ∈ recordStates := by
  cases h with
  | noProfile _ => simp [Bringup.state, recordStates]
  | rejected _ _ _ _ => exact state_rejection
  | completed _ _ _ _ => simp [Bringup.state, recordStates]

theorem state_validateAccess (hs : state result ∈ recordStates) :
    state (validateAccess pciBars result barIndex offset).2 ∈ recordStates := by
  rcases validateAccess_cases pciBars result barIndex offset with ⟨w, -, he⟩ | ⟨-, he⟩
  · rw [he]
    exact hs
  · rw [he]
    exact state_rejection

/-- After validation the read cannot fail, so `ReadFailed` is never recorded. -/
theorem state_readAndRecord {value : Option UInt32} (hs : state result ∈ recordStates)
    (h : Runs (readAndRecord host pciBars result barIndex offset) t (value, result')) :
    state result' ∈ recordStates := by
  unfold readAndRecord at h
  rcases validateAccess_cases pciBars result barIndex offset with ⟨w, hw, he⟩ | ⟨-, he⟩
  · rw [he] at h
    dsimp only at h
    rw [if_neg (by simp)] at h
    obtain ⟨t₁, v, t₂, rfl, hr, hend⟩ := runs_bind.mp h
    rcases Transport.runs_readReg32FromBar.mp hr with ⟨w', raw, -, rfl, rfl⟩ | ⟨hn, -, -⟩
    · obtain ⟨rfl, hv⟩ := runs_pure.mp hend
      rw [(Prod.mk.inj hv).2]
      exact hs
    · exact absurd ⟨w, hw⟩ hn
  · rw [he] at h
    dsimp only at h
    rw [if_pos (by simp)] at h
    obtain ⟨rfl, hv⟩ := runs_pure.mp h
    rw [(Prod.mk.inj hv).2]
    exact state_rejection

theorem state_step (h : RecordStep host result result') (hs : state result ∈ recordStates) :
    state result' ∈ recordStates := by
  cases h with
  | reset => simp [state, reset, recordStates]
  | validateAccess => exact state_validateAccess hs
  | readAndRecord h => exact state_readAndRecord hs h
  | pollReg32MaskedEq h => exact (runs_pollReg32MaskedEq h).state hs
  | pollReg32Eq h => exact (runs_pollReg32MaskedEq h).state hs
  | writeReg32AndVerify h => exact (runs_writeReg32AndVerify h).state hs
  | run h => exact (runs_run h).state

/-! ## Histories -/

/-- The record after some history of calls, from a fresh one on. -/
def Reached (host : ByteOrder) (result : BringupResult) : Prop :=
  Relation.ReflTransGen (RecordStep host) {} result

theorem state_reached (h : Reached host result) : state result ∈ recordStates := by
  induction h with
  | refl => simp [state, recordStates]
  | tail _ hstep ih => exact state_step hstep ih

/-- A call from a fresh record that leaves the pair `p`. -/
theorem reached_of_step {p : BringupStage × BringupFailureReason}
    (h : ∃ result, RecordStep host {} result ∧ state result = p) :
    ∃ result, Reached host result ∧ state result = p := by
  obtain ⟨result, hstep, hp⟩ := h
  exact ⟨result, Relation.ReflTransGen.single hstep, hp⟩

/--
Whatever the bring-up's functions are called on, in whatever order, the record shows one of eight
pairs of stage and reason, and each of them occurs. So it never shows `ReadFailed`, `WriteFailed`,
or a reset that was attempted or observed, and `Timeout` comes with `TimedOut` alone.
-/
theorem recordStates_exact (host : ByteOrder) (p : BringupStage × BringupFailureReason) :
    (∃ result, Reached host result ∧ state result = p) ↔ p ∈ recordStates := by
  constructor
  · rintro ⟨result, h, rfl⟩
    exact state_reached h
  · intro hp
    simp only [recordStates, List.mem_cons, List.not_mem_nil, or_false] at hp
    rcases hp with rfl | rfl | rfl | rfl | rfl | rfl | rfl | rfl
    · exact ⟨{}, Relation.ReflTransGen.refl, rfl⟩
    · exact reached_of_step ⟨_, @RecordStep.validateAccess host {} {} 6 0, rfl⟩
    · exact reached_of_step ⟨_, @RecordStep.validateAccess host {} {} 1 0, rfl⟩
    · exact reached_of_step ⟨_, @RecordStep.validateAccess host {} {} 0 0, rfl⟩
    -- polls without a load, in reach of the mapped table
    · exact reached_of_step ⟨_, RecordStep.pollReg32MaskedEq (Program.runs_exec
        device8897.environment [] (pollReg32MaskedEq host mappedTable {} 0 0 0 0 0 0)), rfl⟩
    · exact reached_of_step ⟨_, RecordStep.writeReg32AndVerify (Program.runs_exec
        device8897.environment [] (writeReg32AndVerify host mappedTable {} 0 0 0 0 0 0)), rfl⟩
    · exact reached_of_step ⟨_, RecordStep.run (Program.runs_exec
        device8897.environment [] (run host {} {} {})), rfl⟩
    · exact reached_of_step ⟨_, RecordStep.run (Program.runs_exec
        device8897.environment [] (run host mappedTable
          { pcieProfile := Transport.pcie8897Profile } {})), rfl⟩

end Bringup

end MarvellW8897
