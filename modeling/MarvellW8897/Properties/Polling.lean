import MarvellW8897.Properties.Bringup
import MarvellW8897.Spec.DeviceMemory
import MarvellW8897.Spec.Stream

/-!
# Polling

* `pollLoop_counter` — the iterations left are those the 32-bit test allows; it never wraps.
* `PollExit`, `runs_pollReg32MaskedEq` — the exits of a poll: the loads made and the record left.
* `pollReg32MaskedEq_bounded` — a poll against any stream of values.
* `VerifyExit`, `runs_writeReg32AndVerify` — the exits of a write that is read back.
* `writeReg32AndVerify_outcome` — such a write against any stream of values.
-/

namespace MarvellW8897

open Effect

namespace Bringup

variable {host : ByteOrder} {pciBars : PciBarState} {result : BringupResult}
  {barIndex offset mask expected maxPolls delayUsec value : UInt32} {t : List DeviceEvent}

/-! ## The counter -/

/--
With `n` iterations left at counter `i`, the next iteration is decided by the test `i < maxPolls`,
and the increment does not wrap.
-/
theorem pollLoop_counter {n : Nat} {i : UInt32} (hi : i.toNat + n = maxPolls.toNat) :
    (i < maxPolls ↔ n ≠ 0) ∧ (n ≠ 0 → (i + 1).toNat = i.toNat + 1) := by
  have hmax : maxPolls.toNat < UInt32.size := maxPolls.toNat_lt
  refine ⟨?_, ?_⟩
  · rw [UInt32.lt_iff_toNat_lt]
    omega
  · intro hn
    rw [UInt32.toNat_add]
    exact Nat.mod_eq_of_lt (show i.toNat + 1 < UInt32.size by omega)

theorem maxPolls_pos (h : maxPolls ≠ 0) : 0 < maxPolls.toNat := by
  refine Nat.pos_of_ne_zero ?_
  intro hz
  exact h (UInt32.toNat_inj.mp hz)

/-! ## The exits of a poll -/

/-- The answer `raw` of a load does not have the bits that the poll waits for. -/
def Misses (host : ByteOrder) (mask expected raw : UInt32) : Prop :=
  osSwapLittleToHostInt32 host raw &&& mask ≠ expected

instance : DecidablePred (Misses host mask expected) := fun _ => inferInstanceAs (Decidable (¬ _))

/-- The record after loads that gave `raws`, from counter `i` on. -/
def recordPolls (host : ByteOrder) (i : UInt32) (result : BringupResult) (raws : List UInt32) :
    BringupResult :=
  match raws.getLast? with
  | none => result
  | some raw => { result with
      lastValueRead := osSwapLittleToHostInt32 host raw
      pollIterations := i + UInt32.ofNat raws.length }

def recordTimeout (result : BringupResult) : BringupResult :=
  { result with failureReason := .timeout, stage := .timedOut }

/-- Recording the first load and then the others. -/
theorem recordPolls_cons (i raw : UInt32) (raws : List UInt32) :
    recordPolls host (i + 1)
        { result with
          lastValueRead := osSwapLittleToHostInt32 host raw
          pollIterations := i + 1 } raws =
      recordPolls host i result (raw :: raws) := by
  have hcount : i + 1 + UInt32.ofNat raws.length = i + UInt32.ofNat (raw :: raws).length := by
    rw [List.length_cons, UInt32.ofNat_add, UInt32.add_assoc, UInt32.add_comm 1]
    rfl
  cases hlast : raws.getLast? with
  | none =>
    rw [List.getLast?_eq_none_iff.mp hlast]
    rfl
  | some last =>
    have hlast' : (raw :: raws).getLast? = some last := by
      rw [List.getLast?_cons, hlast]
      rfl
    simp only [recordPolls, hlast, hlast', hcount]

/-- The delay between two polls. -/
theorem runs_pause {α : Type} {more : Bool} {p : DeviceM α} {a : α}
    (h : Runs (if (more && delayUsec != 0) = true then ask (.delay delayUsec) >>= fun _ => p else p)
      t a) : ∃ t', t = (if more then pause delayUsec else []) ++ t' ∧ Runs p t' a := by
  unfold pause
  cases more with
  | false => exact ⟨t, rfl, h⟩
  | true =>
    by_cases hd : delayUsec = 0
    · rw [if_neg (by simp [hd])] at h
      exact ⟨t, by simp [hd], h⟩
    · rw [if_pos (by simp [hd])] at h
      obtain ⟨_, t', rfl, h'⟩ := runs_ask_bind.mp h
      exact ⟨t', by simp [hd], h'⟩

/-- The loop ends at the first hit, or has used up its iterations on misses. -/
theorem runs_pollLoop {w : Window MmioPtr} (hw : PciBars.Access pciBars barIndex offset w) {n : Nat}
    {i : UInt32} {r : Bool × BringupResult} (hi : i.toNat + n = maxPolls.toNat)
    (h : Runs (pollLoop host pciBars barIndex offset mask expected maxPolls delayUsec n i result)
      t r) :
    ∃ misses : List UInt32, (∀ raw ∈ misses, Misses host mask expected raw) ∧
      ((∃ hit, ¬ Misses host mask expected hit ∧ misses.length < n ∧
          t = pollTrace w.base offset delayUsec (misses ++ [hit]) ∧
          r = (true, recordPolls host i result (misses ++ [hit]))) ∨
        (misses.length = n ∧ t = pollTrace w.base offset delayUsec misses ∧
          r = (false, recordTimeout (recordPolls host i result misses)))) := by
  induction n generalizing i result t with
  | zero =>
    obtain ⟨rfl, rfl⟩ := runs_pure.mp h
    exact ⟨[], by simp, Or.inr ⟨rfl, rfl, rfl⟩⟩
  | succ n ih =>
    obtain ⟨hlt, hnext⟩ := pollLoop_counter hi
    unfold pollLoop at h
    obtain ⟨t₁, value, t₂, rfl, hread, hrest⟩ := runs_bind.mp h
    rcases Transport.runs_readReg32FromBar.mp hread with ⟨w', raw, hw', rfl, rfl⟩ | ⟨hn, -, -⟩
    · obtain rfl := hw'.unique hw
      dsimp only at hrest
      by_cases hhit : osSwapLittleToHostInt32 host raw &&& mask = expected
      · rw [if_pos (by simpa using hhit)] at hrest
        obtain ⟨rfl, rfl⟩ := runs_pure.mp hrest
        exact ⟨[], by simp, Or.inl ⟨raw, by simpa [Misses] using hhit, by simp, rfl, rfl⟩⟩
      · rw [if_neg (by simpa using hhit)] at hrest
        obtain ⟨t', rfl, hloop⟩ := runs_pause hrest
        have hi' : (i + 1).toNat + n = maxPolls.toNat := by
          rw [hnext (by simp)]
          omega
        have hmore := (pollLoop_counter hi').1
        obtain ⟨misses, hmisses, hexit⟩ := ih hi' hloop
        refine ⟨raw :: misses, by simpa using ⟨hhit, hmisses⟩, ?_⟩
        -- there is a delay exactly if a further load follows
        rcases hexit with ⟨hit, hh, hlen, rfl, rfl⟩ | ⟨hlen, rfl, rfl⟩
        · refine Or.inl ⟨hit, hh, by simpa using hlen, ?_, ?_⟩
          · refine (pollTrace_step _ _ _ raw ?_).symm
            simp [hmore, Nat.ne_zero_of_lt hlen]
          · rw [recordPolls_cons]
            rfl
        · refine Or.inr ⟨by simp [hlen], ?_, ?_⟩
          · refine (pollTrace_step _ _ _ raw ?_).symm
            rw [decide_eq_true_iff, hmore, ← hlen, Ne, List.length_eq_zero_iff]
          · rw [recordPolls_cons]
    · exact absurd ⟨w, hw⟩ hn

/-- Once a load was made, the count is that of the loads, whatever it was before. -/
theorem recordPolls_restarted {raws : List UInt32} (h : raws ≠ []) :
    recordPolls host 0 { result with pollIterations := 0 } raws =
      recordPolls host 0 result raws := by
  unfold recordPolls
  cases hlast : raws.getLast? with
  | none => exact absurd (List.getLast?_eq_none_iff.mp hlast) h
  | some last => rfl

/-- The exits of a poll: the requests made, and what is handed back. -/
inductive PollExit (host : ByteOrder) (pciBars : PciBarState) (result : BringupResult)
    (barIndex offset mask expected maxPolls delayUsec : UInt32) :
    List DeviceEvent → Bool × BringupResult → Prop where
  | rejected (missed : ¬ ∃ w, PciBars.Access pciBars barIndex offset w) :
      PollExit host pciBars result barIndex offset mask expected maxPolls delayUsec []
        (false, recordRejection result barIndex offset)
  | hit {w : Window MmioPtr} {misses : List UInt32} {last : UInt32}
      (reached : PciBars.Access pciBars barIndex offset w)
      (before : ∀ raw ∈ misses, Misses host mask expected raw)
      (found : ¬ Misses host mask expected last) (within : misses.length < maxPolls.toNat) :
      PollExit host pciBars result barIndex offset mask expected maxPolls delayUsec
        (pollTrace w.base offset delayUsec (misses ++ [last]))
        (true, recordPolls host 0 (recordAccess result barIndex offset) (misses ++ [last]))
  | timedOut {w : Window MmioPtr} {misses : List UInt32}
      (reached : PciBars.Access pciBars barIndex offset w)
      (before : ∀ raw ∈ misses, Misses host mask expected raw)
      (spent : misses.length = maxPolls.toNat) :
      PollExit host pciBars result barIndex offset mask expected maxPolls delayUsec
        (pollTrace w.base offset delayUsec misses)
        (false, recordTimeout (recordPolls host 0 (recordAccess result barIndex offset) misses))

theorem runs_pollReg32MaskedEq {r : Bool × BringupResult}
    (h : Runs (pollReg32MaskedEq host pciBars result barIndex offset mask expected maxPolls
      delayUsec) t r) :
    PollExit host pciBars result barIndex offset mask expected maxPolls delayUsec t r := by
  unfold pollReg32MaskedEq at h
  rcases validateAccess_cases pciBars result barIndex offset with ⟨w, hw, he⟩ | ⟨hn, he⟩
  · rw [he] at h
    dsimp only at h
    rw [if_neg (by simp)] at h
    by_cases hmax : maxPolls = 0
    · rw [if_pos (by simpa using hmax)] at h
      obtain ⟨rfl, rfl⟩ := runs_pure.mp h
      have hspent : ([] : List UInt32).length = maxPolls.toNat := by
        rw [hmax]
        rfl
      exact PollExit.timedOut hw (by simp) hspent
    · rw [if_neg (by simpa using hmax)] at h
      obtain ⟨misses, hmisses, ⟨hit, hhit, hlt, rfl, rfl⟩ | ⟨hlen, rfl, rfl⟩⟩ :=
        runs_pollLoop hw (Nat.zero_add maxPolls.toNat) h
      · rw [recordPolls_restarted (by simp)]
        exact PollExit.hit hw hmisses hhit hlt
      · have hne : misses ≠ [] := by
          rintro rfl
          exact absurd hlen (maxPolls_pos hmax).ne
        rw [recordPolls_restarted hne]
        exact PollExit.timedOut hw hmisses hlen
  · rw [he] at h
    dsimp only at h
    rw [if_pos (by simp)] at h
    obtain ⟨rfl, rfl⟩ := runs_pure.mp h
    exact PollExit.rejected hn

/-! ## A poll against a stream -/

/-- What a load can give never has a bit outside the mask. -/
theorem misses_of_outside {raw : UInt32} (h : expected &&& ~~~mask ≠ 0) :
    Misses host mask expected raw := by
  rintro rfl
  rw [UInt32.and_assoc, UInt32.and_not_self, UInt32.and_zero] at h
  exact h rfl

/-- The first `n` values of a stream. -/
def firstValues (raw : Nat → UInt32) (n : Nat) : List UInt32 := (List.range n).map raw

@[simp] theorem length_firstValues (raw : Nat → UInt32) (n : Nat) :
    (firstValues raw n).length = n := by simp [firstValues]

theorem firstValues_succ (raw : Nat → UInt32) (n : Nat) :
    firstValues raw (n + 1) = firstValues raw n ++ [raw n] := by
  simp [firstValues, List.range_succ]

theorem mem_firstValues {raw : Nat → UInt32} {n i : Nat} (h : i < n) :
    raw i ∈ firstValues raw n :=
  List.mem_map_of_mem (List.mem_range.mpr h)

/-- The exits of a poll whose loads give the stream `raw`. -/
inductive StreamExit (host : ByteOrder) (pciBars : PciBarState) (result : BringupResult)
    (barIndex offset mask expected maxPolls delayUsec : UInt32) (raw : Nat → UInt32) :
    List DeviceEvent → Bool × BringupResult → Prop where
  | rejected (missed : ¬ ∃ w, PciBars.Access pciBars barIndex offset w) :
      StreamExit host pciBars result barIndex offset mask expected maxPolls delayUsec raw []
        (false, recordRejection result barIndex offset)
  | hit {w : Window MmioPtr} {i : Nat} (reached : PciBars.Access pciBars barIndex offset w)
      (before : ∀ j < i, Misses host mask expected (raw j))
      (found : ¬ Misses host mask expected (raw i)) (within : i < maxPolls.toNat) :
      StreamExit host pciBars result barIndex offset mask expected maxPolls delayUsec raw
        (pollTrace w.base offset delayUsec (firstValues raw (i + 1)))
        (true, { recordAccess result barIndex offset with
          lastValueRead := osSwapLittleToHostInt32 host (raw i)
          pollIterations := UInt32.ofNat (i + 1) })
  | timedOut {w : Window MmioPtr} (reached : PciBars.Access pciBars barIndex offset w)
      (before : ∀ j < maxPolls.toNat, Misses host mask expected (raw j)) :
      StreamExit host pciBars result barIndex offset mask expected maxPolls delayUsec raw
        (pollTrace w.base offset delayUsec (firstValues raw maxPolls.toNat))
        (false, recordTimeout (recordPolls host 0 (recordAccess result barIndex offset)
          (firstValues raw maxPolls.toNat)))

theorem PollExit.fed {r : Bool × BringupResult} {raw : Nat → UInt32} {rest : Environment}
    {past : List DeviceEvent}
    (h : PollExit host pciBars result barIndex offset mask expected maxPolls delayUsec t r)
    (hpast : loadCount past = 0) (ha : Effect.Answered (feed raw rest) past t) :
    StreamExit host pciBars result barIndex offset mask expected maxPolls delayUsec raw t r := by
  cases h with
  | rejected missed => exact StreamExit.rejected missed
  | @hit w misses last reached before found within =>
    have hraws := answered_pollTrace _ _ _ ha
    simp only [hpast, Nat.zero_add] at hraws
    change _ = firstValues raw _ at hraws
    rw [List.length_append, List.length_singleton, firstValues_succ] at hraws
    obtain ⟨hmisses, hlast⟩ := List.append_inj' hraws rfl
    obtain rfl : last = raw misses.length := by simpa using hlast
    rw [hraws, ← firstValues_succ]
    have hrecord : recordPolls host 0 (recordAccess result barIndex offset)
        (firstValues raw (misses.length + 1)) = { recordAccess result barIndex offset with
          lastValueRead := osSwapLittleToHostInt32 host (raw misses.length)
          pollIterations := UInt32.ofNat (misses.length + 1) } := by
      simp [recordPolls, firstValues_succ]
    rw [hrecord]
    refine StreamExit.hit reached ?_ found within
    intro j hj
    refine before _ ?_
    rw [hmisses]
    exact mem_firstValues hj
  | @timedOut w misses reached before spent =>
    have hraws := answered_pollTrace _ _ _ ha
    simp only [hpast, Nat.zero_add] at hraws
    change _ = firstValues raw _ at hraws
    rw [spent] at hraws
    rw [hraws]
    refine StreamExit.timedOut reached ?_
    intro j hj
    refine before _ ?_
    rw [hraws]
    exact mem_firstValues hj

theorem exec_pollReg32MaskedEq (raw : Nat → UInt32) (rest : Environment) :
    let call := (pollReg32MaskedEq host pciBars result barIndex offset mask expected maxPolls
      delayUsec).exec (feed raw rest) []
    StreamExit host pciBars result barIndex offset mask expected maxPolls delayUsec raw
      call.1 call.2 :=
  (runs_pollReg32MaskedEq (Program.runs_exec (feed raw rest) [] _)).fed rfl
    (Program.answered_exec (feed raw rest) [] _)

theorem rejectionReason_ne_readFailed (barIndex : UInt32) :
    rejectionReason barIndex ≠ .readFailed := by
  unfold rejectionReason
  split
  · simp
  · split <;> simp

/-- The record of a poll that timed out after it made a load. -/
theorem recordPolls_firstValues {raw : Nat → UInt32} (h : maxPolls ≠ 0) :
    recordPolls host 0 result (firstValues raw maxPolls.toNat) = { result with
      lastValueRead := osSwapLittleToHostInt32 host (raw (maxPolls.toNat - 1))
      pollIterations := maxPolls } := by
  obtain ⟨n, hn⟩ := Nat.exists_eq_succ_of_ne_zero (maxPolls_pos h).ne'
  have hcount : UInt32.ofNat (n + 1) = maxPolls := by
    rw [← Nat.succ_eq_add_one, ← hn, UInt32.ofNat_toNat]
  rw [hn, Nat.succ_eq_add_one, firstValues_succ]
  simp [recordPolls, hcount]

/--
A poll of a register whose loads give the stream `raw`. A rejected access asks nothing; otherwise
the poll ends at the first value that has the expected bits, or after `maxPolls` loads. Between two
loads there is one delay, if it is not zero, and none elsewhere.
-/
theorem pollReg32MaskedEq_bounded (host : ByteOrder) (pciBars : PciBarState)
    (result : BringupResult) (barIndex offset mask expected maxPolls delayUsec : UInt32)
    (raw : Nat → UInt32) (rest : Environment) :
    let value := fun i => osSwapLittleToHostInt32 host (raw i)
    let loads := fun reg n => pollTrace reg offset delayUsec (firstValues raw n)
    let call := (pollReg32MaskedEq host pciBars result barIndex offset mask expected maxPolls
      delayUsec).exec (feed raw rest) []
    let t := call.1
    let ok := call.2.1
    let r := call.2.2
    (PciBars.isMmioAccessValid pciBars barIndex offset 4 = false → ok = false ∧ t = []) ∧
    (PciBars.isMmioAccessValid pciBars barIndex offset 4 = true →
      ∃ w, PciBars.Access pciBars barIndex offset w ∧
        (∀ i < maxPolls.toNat, value i &&& mask = expected →
          (∀ j < i, value j &&& mask ≠ expected) →
          ok = true ∧ t = loads w.base (i + 1) ∧ r.lastValueRead = value i ∧
            r.pollIterations.toNat = i + 1 ∧ r.stage = result.stage ∧
            r.failureReason = result.failureReason) ∧
        ((∀ i < maxPolls.toNat, value i &&& mask ≠ expected) →
          ok = false ∧ t = loads w.base maxPolls.toNat ∧ r.stage = .timedOut ∧
            r.failureReason = .timeout ∧
            (maxPolls ≠ 0 → r.lastValueRead = value (maxPolls.toNat - 1) ∧
              r.pollIterations = maxPolls))) ∧
    (ok = false → r.failureReason ≠ .readFailed) ∧
    (expected &&& ~~~mask ≠ 0 → ok = false) := by
  intro value loads call t ok r
  have hexit : StreamExit host pciBars result barIndex offset mask expected maxPolls delayUsec raw
    t (ok, r) := exec_pollReg32MaskedEq raw rest
  clear_value t ok r
  cases hexit with
  | rejected missed =>
    refine ⟨fun _ => ⟨rfl, rfl⟩, ?_, fun _ => rejectionReason_ne_readFailed barIndex, fun _ => rfl⟩
    intro hvalid
    exact absurd (PciBars.isMmioAccessValid_iff.mp hvalid) missed
  | @hit w i reached before found within =>
    refine ⟨?_, ?_, by simp, fun hout => absurd (misses_of_outside hout) found⟩
    · intro hinvalid
      exact absurd ⟨w, reached⟩ (PciBars.isMmioAccessValid_eq_false.mp hinvalid)
    · intro _
      refine ⟨w, reached, ?_, fun hnone => absurd (hnone i within) found⟩
      intro k _ hk hfirst
      -- the poll stopped at its first hit
      obtain rfl : k = i := by
        rcases Nat.lt_trichotomy k i with hlt | heq | hgt
        · exact absurd hk (before k hlt)
        · exact heq
        · exact absurd (hfirst i hgt) found
      have hlt : maxPolls.toNat < UInt32.size := maxPolls.toNat_lt
      exact ⟨rfl, rfl, rfl, UInt32.toNat_ofNat_of_lt' (by omega), rfl, rfl⟩
  | @timedOut w reached before =>
    refine ⟨?_, ?_, fun _ => by simp [recordTimeout], fun _ => rfl⟩
    · intro hinvalid
      exact absurd ⟨w, reached⟩ (PciBars.isMmioAccessValid_eq_false.mp hinvalid)
    · intro _
      refine ⟨w, reached, fun i hi hhit _ => absurd hhit (before i hi), ?_⟩
      intro _
      refine ⟨rfl, rfl, rfl, rfl, ?_⟩
      intro hne
      rw [recordPolls_firstValues hne]
      exact ⟨rfl, rfl⟩

/-! ## A write that is read back -/

/-- The store of a write. -/
def storeOf (host : ByteOrder) (reg : MmioPtr) (offset value : UInt32) : DeviceEvent :=
  ⟨.store reg offset (osSwapHostToLittleInt32 host value), ()⟩

/-- The record of a write, before it is read back. -/
def recordWrite (result : BringupResult) (barIndex offset value : UInt32) : BringupResult :=
  { recordAccess result barIndex offset with lastValueWritten := value }

/-- What the outcome of the poll becomes: a failure is a mismatch. -/
def settle : Bool × BringupResult → Bool × BringupResult
  | (true, result) => (true, result)
  | (false, result) =>
    (false, { result with failureReason := .verifyMismatch, stage := .failed })

/-- The exits of a write that is read back. -/
inductive VerifyExit (host : ByteOrder) (pciBars : PciBarState) (result : BringupResult)
    (barIndex offset value verifyMask maxPolls delayUsec : UInt32) :
    List DeviceEvent → Bool × BringupResult → Prop where
  | rejected (missed : ¬ ∃ w, PciBars.Access pciBars barIndex offset w) :
      VerifyExit host pciBars result barIndex offset value verifyMask maxPolls delayUsec []
        (false, recordRejection result barIndex offset)
  | polled {w : Window MmioPtr} {t : List DeviceEvent} {r : Bool × BringupResult}
      (reached : PciBars.Access pciBars barIndex offset w)
      (poll : PollExit host pciBars (recordWrite result barIndex offset value) barIndex offset
        verifyMask (value &&& verifyMask) maxPolls delayUsec t r) :
      VerifyExit host pciBars result barIndex offset value verifyMask maxPolls delayUsec
        (storeOf host w.base offset value :: t) (settle r)

theorem runs_writeReg32AndVerify {verifyMask : UInt32} {r : Bool × BringupResult}
    (h : Runs (writeReg32AndVerify host pciBars result barIndex offset value verifyMask maxPolls
      delayUsec) t r) :
    VerifyExit host pciBars result barIndex offset value verifyMask maxPolls delayUsec t r := by
  unfold writeReg32AndVerify at h
  rcases validateAccess_cases pciBars result barIndex offset with ⟨w, hw, he⟩ | ⟨hn, he⟩
  · rw [he] at h
    dsimp only at h
    rw [if_neg (by simp)] at h
    obtain ⟨t₁, ok, t₂, rfl, hwrite, hrest⟩ := runs_bind.mp h
    rcases Transport.runs_writeReg32ToBar.mp hwrite with ⟨w', hw', rfl, rfl⟩ | ⟨hn, -, -⟩
    · obtain rfl := hw'.unique hw
      rw [if_neg (by simp)] at hrest
      obtain ⟨t₃, polled, t₄, rfl, hpoll, hend⟩ := runs_bind.mp hrest
      have hexit := runs_pollReg32MaskedEq hpoll
      have hsettled : t₄ = [] ∧ r = settle polled := by
        cases hexit with
        | rejected missed => exact absurd ⟨w', hw⟩ missed
        | hit reached before found within => exact runs_pure.mp hend
        | timedOut reached before spent => exact runs_pure.mp hend
      obtain ⟨rfl, rfl⟩ := hsettled
      rw [List.append_nil]
      exact VerifyExit.polled hw hexit
    · exact absurd ⟨w, hw⟩ hn
  · rw [he] at h
    dsimp only at h
    rw [if_pos (by simp)] at h
    obtain ⟨rfl, rfl⟩ := runs_pure.mp h
    exact VerifyExit.rejected hn

theorem recordPolls_lastValueWritten {i : UInt32} (raws : List UInt32) :
    (recordPolls host i result raws).lastValueWritten = result.lastValueWritten := by
  unfold recordPolls
  split <;> rfl

/-- A write against a stream: it is rejected, or stores and then polls the stream. -/
theorem exec_writeReg32AndVerify (host : ByteOrder) (pciBars : PciBarState)
    (result : BringupResult) (barIndex offset value verifyMask maxPolls delayUsec : UInt32)
    (raw : Nat → UInt32) (rest : Environment) :
    let call := (writeReg32AndVerify host pciBars result barIndex offset value verifyMask maxPolls
      delayUsec).exec (feed raw rest) []
    ((¬ ∃ w, PciBars.Access pciBars barIndex offset w) ∧
      call = ([], (false, recordRejection result barIndex offset))) ∨
    ∃ w t r, PciBars.Access pciBars barIndex offset w ∧
      StreamExit host pciBars (recordWrite result barIndex offset value) barIndex offset verifyMask
        (value &&& verifyMask) maxPolls delayUsec raw t r ∧
      call = (storeOf host w.base offset value :: t, settle r) := by
  intro call
  have hr : Runs _ call.1 call.2 := Program.runs_exec (feed raw rest) [] _
  have ha : Effect.Answered (feed raw rest) [] call.1 := Program.answered_exec (feed raw rest) [] _
  have hexit := runs_writeReg32AndVerify hr
  obtain ⟨t, r⟩ := call
  cases hexit with
  | rejected missed => exact Or.inl ⟨missed, rfl⟩
  | @polled w t r reached poll => exact Or.inr ⟨w, t, r, reached, poll.fed rfl ha.2, rfl⟩

/--
A write to a register whose loads give the stream `raw`. A rejected access asks nothing and does not
record the value; otherwise there is one store of the value, followed by a poll that stops at the
first answer which agrees with it on the mask. If none of the first `maxPolls` does, the failure is
a mismatch, whatever the record said before.
-/
theorem writeReg32AndVerify_outcome (host : ByteOrder) (pciBars : PciBarState)
    (result : BringupResult) (barIndex offset value verifyMask maxPolls delayUsec : UInt32)
    (raw : Nat → UInt32) (rest : Environment) :
    let agrees := fun i =>
      osSwapLittleToHostInt32 host (raw i) &&& verifyMask = value &&& verifyMask
    let call := (writeReg32AndVerify host pciBars result barIndex offset value verifyMask maxPolls
      delayUsec).exec (feed raw rest) []
    let t := call.1
    let ok := call.2.1
    let r := call.2.2
    (PciBars.isMmioAccessValid pciBars barIndex offset 4 = false →
      ok = false ∧ t = [] ∧ r.lastValueWritten = result.lastValueWritten) ∧
    (PciBars.isMmioAccessValid pciBars barIndex offset 4 = true →
      ∃ w n, PciBars.Access pciBars barIndex offset w ∧ n ≤ maxPolls.toNat ∧
        t = ⟨.store w.base offset (osSwapHostToLittleInt32 host value), ()⟩ ::
          pollTrace w.base offset delayUsec (firstValues raw n) ∧
        r.lastValueWritten = value ∧
        (ok = true ↔ ∃ i < maxPolls.toNat, agrees i) ∧
        (ok = true → ∃ i, n = i + 1 ∧ agrees i ∧ ∀ j < i, ¬ agrees j) ∧
        (ok = false → r.stage = .failed ∧ r.failureReason = .verifyMismatch) ∧
        (raw 0 = osSwapHostToLittleInt32 host value → maxPolls ≠ 0 → ok = true ∧ n = 1)) := by
  intro agrees call t ok r
  have hback : raw 0 = osSwapHostToLittleInt32 host value → agrees 0 := by
    intro hraw
    simp only [agrees, hraw, littleToHost_hostToLittle]
  rcases exec_writeReg32AndVerify host pciBars result barIndex offset value verifyMask maxPolls
    delayUsec raw rest with ⟨missed, he⟩ | ⟨w, t', r', reached, hexit, he⟩
  · have hcall : (t, ok, r) = ([], (false, recordRejection result barIndex offset)) := he
    clear_value t ok r
    obtain ⟨rfl, rfl, rfl⟩ := hcall
    refine ⟨fun _ => ⟨rfl, rfl, rfl⟩, ?_⟩
    intro hvalid
    exact absurd (PciBars.isMmioAccessValid_iff.mp hvalid) missed
  · refine ⟨fun hinvalid => absurd ⟨w, reached⟩ (PciBars.isMmioAccessValid_eq_false.mp hinvalid),
      fun _ => ?_⟩
    have hcall : (t, ok, r) = (storeOf host w.base offset value :: t', settle r') := he
    clear_value t ok r
    cases hexit with
    | rejected missed => exact absurd ⟨w, reached⟩ missed
    | @hit w' i reached' before found within =>
      obtain rfl := reached'.unique reached
      obtain ⟨rfl, rfl, rfl⟩ := hcall
      have hagrees : agrees i := Decidable.not_not.mp found
      refine ⟨w', i + 1, reached', within, rfl, rfl, iff_of_true rfl ⟨i, within, hagrees⟩,
        fun _ => ⟨i, rfl, hagrees, before⟩, by simp, ?_⟩
      intro hraw _
      cases i with
      | zero => exact ⟨rfl, rfl⟩
      | succ i => exact absurd (hback hraw) (before 0 (Nat.succ_pos i))
    | @timedOut w' reached' before =>
      obtain rfl := reached'.unique reached
      obtain ⟨rfl, rfl, rfl⟩ := hcall
      refine ⟨w', maxPolls.toNat, reached', Nat.le_refl _, rfl, ?_, iff_of_false (by simp) ?_,
        by simp, fun _ => ⟨rfl, rfl⟩, ?_⟩
      · exact recordPolls_lastValueWritten _
      · rintro ⟨i, hi, hagrees⟩
        exact before i hi hagrees
      · intro hraw hmax
        exact absurd (hback hraw) (before 0 (maxPolls_pos hmax))

end Bringup

end MarvellW8897
