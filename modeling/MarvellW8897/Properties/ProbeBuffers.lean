import MarvellW8897.Properties.Probe

/-!
# The reply buffers of the probe

Each call of the probe passes a local array and a count of scalars to write into it. Three of the
counts are taken from the debug ABI record of the kext that is loaded.

* `guarded_main` — every read is inside its array, as long as the counts of the calls are.
* `Queried` — the BAR queries to a kext that reported its ABI.
* `main_inRange_iff` — for which records the probe stays inside its arrays.
* `main_not_inRange` — a record that makes it overrun one.
-/

namespace MarvellW8897

open Effect

namespace Probe

variable {t : List ProbeEvent} {α β : Type}

/-! ## Calls and reads in range -/

/-- The kernel writes no more scalars than were requested, and does not raise the count. -/
structure Exchange.Kept (x : Exchange) : Prop where
  written : x.reply.out.length ≤ x.call.outCount.toNat
  count : x.reply.outCount ≤ x.call.outCount

/-- No more scalars are requested than the array holds. -/
def ConnectCall.Fits (call : ConnectCall) : Prop := call.outCount.toNat ≤ call.capacity

def ProbeOp.isReadPast : ProbeOp → Bool
  | .readPast _ _ => true
  | _ => false

/-- Nothing is requested, written or read outside of an array. -/
structure InRange (t : List ProbeEvent) : Prop where
  requested : ∀ x ∈ exchanges t, x.call.Fits
  written : ∀ x ∈ exchanges t, x.reply.out.length ≤ x.call.capacity
  read : ∀ e ∈ t, e.op.isReadPast = false

/-- Every read is inside its array, if the counts of the calls are. -/
def Guarded (t : List ProbeEvent) : Prop :=
  (∀ x ∈ exchanges t, x.Kept ∧ x.call.Fits) → ∀ e ∈ t, e.op.isReadPast = false

theorem sequential_guarded : Sequential Guarded where
  nil := by
    intro _ e he
    simp at he
  append := by
    intro t u ht hu h e he
    rw [exchanges_append] at h
    rcases List.mem_append.mp he with he | he
    · exact ht (fun x hx => h x (List.mem_append_left _ hx)) e he
    · exact hu (fun x hx => h x (List.mem_append_right _ hx)) e he

theorem guarded_pure (a : α) : Leaves Guarded (Pure.pure a : ProbeM α) :=
  leaves_pure sequential_guarded a

theorem Guarded.bind {p : ProbeM α} {f : α → ProbeM β} (hp : Leaves Guarded p)
    (hf : ∀ a, Leaves Guarded (f a)) : Leaves Guarded (p >>= f) :=
  leaves_bind sequential_guarded hp hf

theorem guarded_ask {op : ProbeOp} (h : op.isReadPast = false) :
    Leaves Guarded (Program.ask op : ProbeM op.Resp) := by
  intro t r hr _ e he
  rw [runs_ask.mp hr, List.mem_singleton] at he
  rw [he]
  exact h

theorem guarded_print (line : Line) : Leaves Guarded (print line) := guarded_ask rfl

/-- What follows a call may read as many scalars as the array holds. -/
theorem guarded_call {n : Nat} {selector : UInt32} {input : List UInt64} {out : Fin n → UInt64}
    {outCount : UInt32} {f : IOReturn × UInt32 × (Fin n → UInt64) → ProbeM β}
    (hf : ∀ r, r.2.1.toNat ≤ n → Leaves Guarded (f r)) :
    Leaves Guarded (callScalarMethod selector input out outCount >>= f) := by
  intro t b h hcalls
  obtain ⟨t₁, r, t₂, rfl, hcall, hrest⟩ := runs_bind.mp h
  obtain ⟨reply, rfl, rfl⟩ := runs_ask_map.mp hcall
  obtain ⟨hkept, hfits⟩ := hcalls ⟨{ selector, input, capacity := n, outCount }, reply⟩
    List.mem_cons_self
  have hcount : reply.outCount.toNat ≤ n :=
    Nat.le_trans (UInt32.le_iff_toNat_le.mp hkept.count) hfits
  have hguarded := hf _ hcount t₂ b hrest (fun x hx => hcalls x (List.mem_cons_of_mem _ hx))
  intro e he
  rcases List.mem_cons.mp he with rfl | he
  · rfl
  · exact hguarded e he

theorem guarded_printFields {n : Nat} {line : UInt32 → UInt64 → Line} {out : Fin n → UInt64}
    {outCount : UInt32} (h : outCount.toNat ≤ n) :
    Leaves Guarded (printFields line out outCount) := by
  refine leaves_forM sequential_guarded ?_
  intro i hi
  have hlt : i < n := Nat.lt_of_lt_of_le (List.mem_range.mp hi) h
  refine Guarded.bind ?_ (fun _ => guarded_print _)
  rw [readOut, dif_pos hlt]
  exact guarded_pure _

theorem guarded_getPciInfo : Leaves Guarded getPciInfo :=
  guarded_call (fun _ hr => Guarded.bind (guarded_print _) (fun _ =>
    Leaves.ite (guarded_printFields hr) (guarded_pure _)))

theorem guarded_getDebugAbiInfo : Leaves Guarded getDebugAbiInfo := by
  refine guarded_call (fun _ hr => Guarded.bind (guarded_print _) (fun _ => Leaves.ite ?_ ?_))
  · exact Guarded.bind (guarded_printFields hr) (fun _ => guarded_pure _)
  · exact Leaves.ite (Guarded.bind (guarded_print _) (fun _ => guarded_pure _)) (guarded_pure _)

theorem guarded_explicitRead (abi : AbiInfo) (options : ProbeOptions) :
    Leaves Guarded (explicitRead abi options) := by
  have hread : ∀ bar offset, Leaves Guarded (explicitReadBarReg bar offset) := fun _ _ =>
    Guarded.bind (guarded_print _) (fun _ => guarded_call (fun _ _ =>
      Guarded.bind (guarded_print _) (fun _ => guarded_pure _)))
  refine Leaves.ite (Leaves.ite (guarded_print _) ?_) (guarded_pure _)
  exact Guarded.bind (hread _ _) (fun _ => Leaves.ite (guarded_print _) (guarded_pure _))

theorem guarded_tryGetBarInfo {selector bar want : UInt32} {snapshot : Option BarInfoSnapshot} :
    Leaves Guarded (tryGetBarInfo selector bar want snapshot) := by
  refine guarded_call (fun _ hr => Guarded.bind (guarded_print _) (fun _ => ?_))
  refine Leaves.ite (guarded_pure _) ?_
  exact Guarded.bind (guarded_printFields hr) (fun _ => guarded_pure _)

theorem guarded_tryWants {bar : UInt32} (wants : List UInt32) :
    Leaves Guarded (tryWants bar wants) := by
  induction wants with
  | nil => exact guarded_pure false
  | cons want wants ih =>
    exact Guarded.bind guarded_tryGetBarInfo (fun _ => Leaves.ite (guarded_pure _) ih)

theorem guarded_queryBars (abi : AbiInfo) : Leaves Guarded (queryBars abi) := by
  refine leaves_foldlM sequential_guarded (fun snapshots b => ?_)
  refine Guarded.bind (Leaves.ite ?_ ?_) (fun _ => Leaves.ite
    (Guarded.bind (guarded_print _) (fun _ => guarded_pure _)) (guarded_pure _))
  · refine Guarded.bind (Leaves.ite guarded_tryGetBarInfo (guarded_pure _)) (fun _ => ?_)
    exact Leaves.ite (Guarded.bind guarded_tryGetBarInfo (fun _ => guarded_pure _)) (guarded_pure _)
  · refine Guarded.bind guarded_tryGetBarInfo (fun _ => Leaves.ite (guarded_pure _) ?_)
    exact Guarded.bind (guarded_tryWants _) (fun _ => guarded_pure _)

theorem guarded_printBarSummary (snapshots : Fin kMaxBars → BarInfoSnapshot) :
    Leaves Guarded (printBarSummary snapshots) := by
  refine Guarded.bind (guarded_print _) (fun _ =>
    Guarded.bind (leaves_foldlM sequential_guarded ?_) (fun _ => ?_))
  · intro sawMappedMemory bar
    refine Leaves.ite (Guarded.bind (guarded_print _) (fun _ => guarded_pure _)) ?_
    refine Guarded.bind (guarded_print _) (fun _ => ?_)
    split
    · exact Guarded.bind (guarded_print _) (fun _ => guarded_pure _)
    · exact guarded_pure _
  · exact Leaves.ite (Guarded.bind (guarded_print _) (fun _ => guarded_print _)) (guarded_print _)

theorem guarded_getBringupResult (abi : AbiInfo) : Leaves Guarded (getBringupResult abi) := by
  refine Leaves.ite ?_ (guarded_print _)
  refine guarded_call (fun _ _ => Guarded.bind (guarded_print _) (fun _ => ?_))
  exact Leaves.ite (leaves_forM sequential_guarded (fun _ _ => guarded_print _))
    (Leaves.ite (guarded_print _) (guarded_pure _))

theorem guarded_getTransportState (abi : AbiInfo) : Leaves Guarded (getTransportState abi) := by
  have hend : ∀ selector kr (outCount : UInt32) (out : Fin 8 → UInt64), outCount.toNat ≤ 8 →
      Leaves Guarded (printTransportState selector kr outCount out) := fun _ _ _ _ h =>
    Guarded.bind (guarded_print _) (fun _ =>
      Leaves.ite (guarded_printFields h) (Leaves.ite (guarded_print _) (guarded_pure _)))
  refine Leaves.ite (guarded_print _) (guarded_call (fun _ hr => ?_))
  exact Leaves.ite (guarded_call (fun _ hr => hend _ _ _ _ hr)) (hend _ _ _ _ hr)

theorem guarded_main (argv : List CString) : Leaves Guarded (main argv) := by
  unfold main
  split
  · refine Guarded.bind (guarded_ask rfl) (fun _ => Leaves.ite
      (Guarded.bind (guarded_print _) (fun _ => guarded_pure _)) ?_)
    refine Guarded.bind (guarded_ask rfl) (fun _ => Guarded.bind (guarded_ask rfl) (fun _ =>
      Leaves.ite (Guarded.bind (guarded_print _) (fun _ => guarded_pure _)) ?_))
    refine Guarded.bind ?_ (fun _ => Guarded.bind (guarded_ask rfl) (fun _ => guarded_pure _))
    exact Guarded.bind guarded_getPciInfo (fun _ => Guarded.bind guarded_getDebugAbiInfo (fun abi =>
      Guarded.bind (guarded_explicitRead abi _) (fun _ => Guarded.bind (guarded_queryBars abi)
        (fun _ => Guarded.bind (guarded_printBarSummary _) (fun _ =>
          Guarded.bind (guarded_getBringupResult abi) (fun _ => guarded_getTransportState abi))))))
  · next refused _ =>
    refine Guarded.bind ?_ (fun _ => Guarded.bind (guarded_print _) (fun _ => guarded_pure _))
    cases refused with
    | none => exact guarded_pure _
    | some offset => exact guarded_print _
  · exact Guarded.bind (guarded_print _) (fun _ => guarded_pure _)
  · exact guarded_ask rfl

/-! ## The calls with counts of their own -/

/-- Every call requests what its array holds. -/
def AllFit (t : List ProbeEvent) : Prop := ∀ x ∈ exchanges t, x.call.Fits

theorem sequential_allFit : Sequential AllFit where
  nil := by simp [AllFit]
  append := by
    intro t u ht hu
    unfold AllFit
    rw [exchanges_append, List.forall_mem_append]
    exact ⟨ht, hu⟩

theorem allFit_append {u : List ProbeEvent} : AllFit (t ++ u) ↔ AllFit t ∧ AllFit u := by
  unfold AllFit
  rw [exchanges_append, List.forall_mem_append]

theorem Calls.allFit {p : ProbeM α} (h : Calls [] p) : Leaves AllFit p := by
  intro t a hr x hx
  rw [h.exchanges_nil hr] at hx
  simp at hx

theorem allFit_callScalarMethod {n : Nat} {selector : UInt32} {input : List UInt64}
    {out : Fin n → UInt64} {outCount : UInt32} (h : outCount.toNat ≤ n) :
    Leaves AllFit (callScalarMethod selector input out outCount) := by
  intro t r hr x hx
  obtain ⟨reply, he, -⟩ := runs_callScalarMethod hr
  rw [he, List.mem_singleton] at hx
  rw [hx]
  exact h

theorem allFit_tryGetBarInfo {selector bar want : UInt32} {snapshot : Option BarInfoSnapshot}
    (h : want.toNat ≤ 11) : Leaves AllFit (tryGetBarInfo selector bar want snapshot) := by
  refine leaves_bind sequential_allFit (allFit_callScalarMethod h) (fun _ => Calls.allFit ?_)
  refine Uses.bind (calls_print _) (fun _ => Uses.ite (uses_pure _) ?_)
  exact Uses.bind (calls_printFields _ _ _) (fun _ => uses_pure _)

theorem allFit_tryWants {bar : UInt32} {wants : List UInt32} (h : ∀ want ∈ wants, want.toNat ≤ 11) :
    Leaves AllFit (tryWants bar wants) := by
  induction wants with
  | nil => exact leaves_pure sequential_allFit false
  | cons want wants ih =>
    rw [List.forall_mem_cons] at h
    exact leaves_bind sequential_allFit (allFit_tryGetBarInfo h.1) (fun _ =>
      Leaves.ite (leaves_pure sequential_allFit _) (ih h.2))

theorem allFit_getPciInfo : Leaves AllFit getPciInfo := by
  refine leaves_bind sequential_allFit (allFit_callScalarMethod (by decide)) (fun _ =>
    Calls.allFit ?_)
  exact Uses.bind (calls_print _) (fun _ => Uses.ite (calls_printFields _ _ _) (uses_pure _))

theorem allFit_explicitRead (abi : AbiInfo) (options : ProbeOptions) :
    Leaves AllFit (explicitRead abi options) := by
  have hread : ∀ bar offset, Leaves AllFit (explicitReadBarReg bar offset) := fun _ _ =>
    leaves_bind sequential_allFit (Calls.allFit (calls_print _)) (fun _ =>
      leaves_bind sequential_allFit (allFit_callScalarMethod (by decide)) (fun _ =>
        Calls.allFit (Uses.bind (calls_print _) (fun _ => uses_pure _))))
  refine Leaves.ite (Leaves.ite (Calls.allFit (calls_print _)) ?_) (leaves_pure sequential_allFit _)
  exact leaves_bind sequential_allFit (hread _ _) (fun _ =>
    Calls.allFit (Uses.ite (calls_print _) (uses_pure _)))

theorem allFit_getBringupResult (abi : AbiInfo) : Leaves AllFit (getBringupResult abi) := by
  refine Leaves.ite ?_ (Calls.allFit (calls_print _))
  refine leaves_bind sequential_allFit (allFit_callScalarMethod (by decide)) (fun _ =>
    Calls.allFit ?_)
  exact Uses.bind (calls_print _) (fun _ => Uses.ite (Uses.forM (fun _ => calls_print _))
    (Uses.ite (calls_print _) (uses_pure _)))

/-- Without a reported ABI the counts of the BAR queries are those of the array, or less. -/
theorem allFit_queryBars : Leaves AllFit (queryBars {}) := by
  have hwants : ∀ want ∈ [(11 : UInt32), 10, 8], want.toNat ≤ 11 := by
    simp only [List.forall_mem_cons, List.not_mem_nil, false_imp_iff, implies_true, and_true]
    decide
  refine leaves_foldlM sequential_allFit (fun snapshots b => ?_)
  refine leaves_bind sequential_allFit ?_ (fun _ => Calls.allFit (Uses.ite
    (Uses.bind (calls_print _) (fun _ => uses_pure _)) (uses_pure _)))
  refine leaves_bind sequential_allFit (allFit_tryGetBarInfo (by decide)) (fun _ =>
    Leaves.ite (leaves_pure sequential_allFit _) ?_)
  exact leaves_bind sequential_allFit (allFit_tryWants hwants) (fun _ =>
    leaves_pure sequential_allFit _)

theorem allFit_getTransportState : Leaves AllFit (getTransportState {}) := by
  refine Leaves.ite (Calls.allFit (calls_print _)) ?_
  refine leaves_bind sequential_allFit (allFit_callScalarMethod (by decide)) (fun _ =>
    Leaves.ite ?_ (Calls.allFit calls_printTransportState))
  exact leaves_bind sequential_allFit (allFit_callScalarMethod (by decide)) (fun _ =>
    Calls.allFit calls_printTransportState)

/-! ## The BAR queries to a kext that reported its ABI -/

/-- A V2 query that was answered with an error. -/
def Exchange.FailedV2 (x : Exchange) : Prop :=
  x.call.selector = kMarvellMethodGetBarInfoV2 ∧ x.reply.ret ≠ kIOReturnSuccess

/-- The calls of the BAR queries: V2 if it is advertised, and legacy where V2 gave nothing. -/
structure Queried (abi : AbiInfo) (xs : List Exchange) : Prop where
  mem : ∀ x ∈ xs, x.call.capacity = 11 ∧
    ((selectorSupported abi.selectorBitmap kMarvellMethodGetBarInfoV2 = true ∧
        x.call.outCount = abi.v2BarCount) ∨
      (selectorSupported abi.selectorBitmap kMarvellMethodGetBarInfoLegacy = true ∧
        (selectorSupported abi.selectorBitmap kMarvellMethodGetBarInfoV2 = true →
          ∃ y ∈ xs, y.FailedV2) ∧ x.call.outCount = abi.legacyBarCount))
  v2 : selectorSupported abi.selectorBitmap kMarvellMethodGetBarInfoV2 = true →
    ∃ x ∈ xs, x.call.outCount = abi.v2BarCount
  legacy : selectorSupported abi.selectorBitmap kMarvellMethodGetBarInfoLegacy = true →
    (selectorSupported abi.selectorBitmap kMarvellMethodGetBarInfoV2 = true →
      ∃ y ∈ xs, y.FailedV2) →
    ∃ x ∈ xs, x.call.outCount = abi.legacyBarCount

theorem exists_mem_append {p : Exchange → Prop} {xs ys : List Exchange} :
    (∃ x ∈ xs ++ ys, p x) ↔ (∃ x ∈ xs, p x) ∨ ∃ x ∈ ys, p x := by
  simp only [List.mem_append, or_and_right, exists_or]

theorem Queried.append {abi : AbiInfo} {xs ys : List Exchange} (h : Queried abi xs)
    (h' : Queried abi ys) : Queried abi (xs ++ ys) where
  mem := by
    intro x hx
    rcases List.mem_append.mp hx with hx | hx
    · refine ⟨(h.mem x hx).1, (h.mem x hx).2.imp_right fun ⟨hl, hv, hc⟩ => ⟨hl, fun h2 => ?_, hc⟩⟩
      exact exists_mem_append.mpr (Or.inl (hv h2))
    · refine ⟨(h'.mem x hx).1, (h'.mem x hx).2.imp_right fun ⟨hl, hv, hc⟩ => ⟨hl, fun h2 => ?_, hc⟩⟩
      exact exists_mem_append.mpr (Or.inr (hv h2))
  v2 := fun hs => exists_mem_append.mpr (Or.inl (h.v2 hs))
  legacy := by
    intro hs hv
    rw [exists_mem_append]
    by_cases h2 : selectorSupported abi.selectorBitmap kMarvellMethodGetBarInfoV2 = true
    · rcases exists_mem_append.mp (hv h2) with hf | hf
      · exact Or.inl (h.legacy hs (fun _ => hf))
      · exact Or.inr (h'.legacy hs (fun _ => hf))
    · exact Or.inl (h.legacy hs (fun h => absurd h h2))

/-- The counts that are used fit the array of `tryGetBarInfo`. -/
theorem Queried.fits_iff {abi : AbiInfo} {xs : List Exchange} (h : Queried abi xs) :
    (∀ x ∈ xs, x.call.Fits) ↔
      (selectorSupported abi.selectorBitmap kMarvellMethodGetBarInfoV2 = true →
        abi.v2BarCount.toNat ≤ 11) ∧
      (selectorSupported abi.selectorBitmap kMarvellMethodGetBarInfoLegacy = true →
        (selectorSupported abi.selectorBitmap kMarvellMethodGetBarInfoV2 = true →
          ∃ y ∈ xs, y.FailedV2) → abi.legacyBarCount.toNat ≤ 11) := by
  have hfits : ∀ x ∈ xs, x.call.Fits ↔ x.call.outCount.toNat ≤ 11 := by
    intro x hx
    rw [ConnectCall.Fits, (h.mem x hx).1]
  constructor
  · intro hall
    refine ⟨fun hs => ?_, fun hs hv => ?_⟩
    · obtain ⟨x, hx, hc⟩ := h.v2 hs
      rw [← hc]
      exact (hfits x hx).mp (hall x hx)
    · obtain ⟨x, hx, hc⟩ := h.legacy hs hv
      rw [← hc]
      exact (hfits x hx).mp (hall x hx)
  · rintro ⟨hv2, hlegacy⟩ x hx
    rw [hfits x hx]
    rcases (h.mem x hx).2 with ⟨hs, hc⟩ | ⟨hs, hv, hc⟩
    · rw [hc]
      exact hv2 hs
    · rw [hc]
      exact hlegacy hs hv

theorem runs_tryGetBarInfo {selector bar want : UInt32} {snapshot : Option BarInfoSnapshot}
    {r : Bool × Option BarInfoSnapshot} (h : Runs (tryGetBarInfo selector bar want snapshot) t r) :
    ∃ reply, exchanges t = [⟨⟨selector, [bar.toUInt64], 11, want⟩, reply⟩] ∧
      (r.1 = true ↔ reply.ret = kIOReturnSuccess) := by
  obtain ⟨t₁, r₁, t₂, rfl, hcall, h₁⟩ := runs_bind.mp h
  obtain ⟨reply, hx, rfl⟩ := runs_callScalarMethod hcall
  obtain ⟨_, t₃, rfl, h₂⟩ := runs_ask_bind.mp h₁
  have hrest : exchanges t₃ = [] := by
    refine Calls.exchanges_nil (Uses.ite (uses_pure _) ?_) h₂
    exact Uses.bind (calls_printFields _ _ _) (fun _ => uses_pure _)
  refine ⟨reply, ?_, ?_⟩
  · rw [exchanges_append, hx]
    show _ ++ exchanges t₃ = _
    rw [hrest]
    rfl
  · split at h₂
    · next hne =>
      obtain ⟨-, rfl⟩ := runs_pure.mp h₂
      exact iff_of_false (by simp) hne
    · next heq =>
      obtain ⟨_, _, _, -, -, h₃⟩ := runs_bind.mp h₂
      obtain ⟨-, rfl⟩ := runs_pure.mp h₃
      exact iff_of_true rfl (not_not.mp heq)

/-- The query of one BAR. -/
theorem queried_queryAdvertised {abi : AbiInfo} {bar : UInt32} {snapshot : BarInfoSnapshot}
    {r : Bool × Option BarInfoSnapshot} (h : Runs (queryAdvertised abi bar snapshot) t r) :
    Queried abi (exchanges t) := by
  obtain ⟨t₁, ⟨ok, snapshot₁⟩, t₂, rfl, hv2, h₂⟩ := runs_bind.mp h
  have hlegacy : (ok = false ∧
      selectorSupported abi.selectorBitmap kMarvellMethodGetBarInfoLegacy = true ∧
      ∃ call reply, exchanges t₂ = [⟨call, reply⟩] ∧ call.capacity = 11 ∧
        call.outCount = abi.legacyBarCount) ∨
      ((ok = false → selectorSupported abi.selectorBitmap kMarvellMethodGetBarInfoLegacy = false) ∧
        exchanges t₂ = []) := by
    dsimp only at h₂
    split at h₂
    · next hasked =>
      rw [Bool.and_eq_true, Bool.not_eq_true'] at hasked
      obtain ⟨t₃, _, t₄, rfl, hquery, h₄⟩ := runs_bind.mp h₂
      obtain ⟨rfl, -⟩ := runs_pure.mp h₄
      obtain ⟨reply, hx, -⟩ := runs_tryGetBarInfo hquery
      rw [List.append_nil]
      exact Or.inl ⟨hasked.1, hasked.2, _, reply, hx, rfl, rfl⟩
    · next hunasked =>
      obtain ⟨rfl, -⟩ := runs_pure.mp h₂
      refine Or.inr ⟨?_, rfl⟩
      intro hok
      simpa [hok] using hunasked
  rw [exchanges_append]
  unfold queryAdvertisedV2 at hv2
  split at hv2
  · next hs2 =>
    obtain ⟨reply, hx, hok⟩ := runs_tryGetBarInfo hv2
    rw [hx]
    rcases hlegacy with ⟨hfailed, hs, call, reply', hx', hcap, hcount⟩ | ⟨hno, hx'⟩
    · have hret : reply.ret ≠ kIOReturnSuccess := by
        rw [Ne, ← hok, hfailed]
        simp
      rw [hx']
      refine ⟨?_, fun _ => ⟨_, List.mem_cons_self, rfl⟩,
        fun _ _ => ⟨_, List.mem_cons_of_mem _ List.mem_cons_self, hcount⟩⟩
      intro x hmem
      rcases List.mem_cons.mp hmem with rfl | hmem
      · exact ⟨rfl, Or.inl ⟨hs2, rfl⟩⟩
      · rw [List.mem_singleton.mp hmem]
        exact ⟨hcap, Or.inr ⟨hs, fun _ => ⟨_, List.mem_cons_self, rfl, hret⟩, hcount⟩⟩
    · rw [hx', List.append_nil]
      refine ⟨?_, fun _ => ⟨_, List.mem_cons_self, rfl⟩, ?_⟩
      · intro x hmem
        rw [List.mem_singleton.mp hmem]
        exact ⟨rfl, Or.inl ⟨hs2, rfl⟩⟩
      · -- a failed V2 query would have been followed by a legacy query
        intro hs hv
        obtain ⟨y, hy, -, hret⟩ := hv hs2
        rw [List.mem_singleton.mp hy] at hret
        have hunsupported := hno (by simpa using mt hok.mp hret)
        rw [hunsupported] at hs
        simp at hs
  · next hs2 =>
    obtain ⟨rfl, he⟩ := runs_pure.mp hv2
    obtain ⟨rfl, -⟩ := Prod.mk.inj he
    rcases hlegacy with ⟨-, hs, call, reply, hx, hcap, hcount⟩ | ⟨hno, hx⟩
    · rw [hx]
      refine ⟨?_, fun h => absurd h hs2, fun _ _ => ⟨_, List.mem_cons_self, hcount⟩⟩
      intro x hmem
      rw [List.mem_singleton.mp hmem]
      exact ⟨hcap, Or.inr ⟨hs, fun h => absurd h hs2, hcount⟩⟩
    · rw [hx]
      refine ⟨by simp, fun h => absurd h hs2, ?_⟩
      intro hs
      rw [hno rfl] at hs
      simp at hs

theorem queried_queryBars {abi : AbiInfo} {snapshots : Fin kMaxBars → BarInfoSnapshot}
    (habi : abi.haveAbiInfo = true) (h : Runs (queryBars abi) t snapshots) :
    Queried abi (exchanges t) := by
  have hloop : (List.finRange kMaxBars = [] ∧ exchanges t = []) ∨ Queried abi (exchanges t) := by
    refine Runs.foldlM (I := fun done u _ => (done = [] ∧ exchanges u = []) ∨
      Queried abi (exchanges u)) h (Or.inl ⟨rfl, rfl⟩) ?_
    intro done b rest u v s₁ s₂ _ hu hv
    obtain ⟨v₁, ⟨ok, snapshot⟩, v₂, rfl, hquery, h₂⟩ := runs_bind.mp hv
    have hrest : exchanges v₂ = [] :=
      Calls.exchanges_nil (Uses.ite (Uses.bind (calls_print _) (fun _ => uses_pure _))
        (uses_pure _)) h₂
    unfold queryByAbi at hquery
    rw [if_pos habi] at hquery
    have hone := queried_queryAdvertised hquery
    rw [exchanges_append, exchanges_append, hrest, List.append_nil]
    rcases hu with ⟨-, hnil⟩ | hu
    · rw [hnil, List.nil_append]
      exact Or.inr hone
    · exact Or.inr (hu.append hone)
  rcases hloop with ⟨hnil, -⟩ | hall
  · exact absurd hnil (by decide)
  · exact hall

/-! ## The transport state of a kext that reported its ABI -/

theorem runs_getTransportState {abi : AbiInfo} (habi : abi.haveAbiInfo = true)
    (h : Runs (getTransportState abi) t ()) :
    (selectorSupported abi.selectorBitmap kMarvellMethodGetTransportState = false ∧
      exchanges t = []) ∨
    (selectorSupported abi.selectorBitmap kMarvellMethodGetTransportState = true ∧
      ∃ reply, exchanges t = [⟨⟨kMarvellMethodGetTransportState, [], 8, abi.transportCount⟩,
        reply⟩]) := by
  unfold getTransportState at h
  rw [habi] at h
  split at h
  · next hlacks =>
    refine Or.inl ⟨by simpa using hlacks, ?_⟩
    exact Calls.exchanges_nil (calls_print _) h
  · next hhas =>
    obtain ⟨t₁, r, t₂, rfl, hcall, h₁⟩ := runs_bind.mp h
    obtain ⟨reply, hx, rfl⟩ := runs_callScalarMethod hcall
    dsimp only at h₁
    rw [if_neg (by simp)] at h₁
    have hrest : exchanges t₂ = [] := Calls.exchanges_nil calls_printTransportState h₁
    rw [exchanges_append, hx, hrest]
    exact Or.inr ⟨by simpa using hhas, reply, rfl⟩

/-! ## The whole run -/

/--
The counts of a debug ABI record fit the arrays they are used with, as far as the probe uses them:
those of advertised selectors, and the legacy one only where V2 gives nothing.
-/
structure ConnectReply.CountsFit (abi : ConnectReply) (xs : List Exchange) : Prop where
  v2 : selectorSupported abi.selectorBitmap kMarvellMethodGetBarInfoV2 = true →
    (abi.out.getD 4 0).toUInt32.toNat ≤ 11
  legacy : selectorSupported abi.selectorBitmap kMarvellMethodGetBarInfoLegacy = true →
    (selectorSupported abi.selectorBitmap kMarvellMethodGetBarInfoV2 = true →
      ∃ x ∈ xs, x.FailedV2) → (abi.out.getD 3 0).toUInt32.toNat ≤ 11
  transport : selectorSupported abi.selectorBitmap kMarvellMethodGetTransportState = true →
    (abi.out.getD 5 0).toUInt32.toNat ≤ 8

/-- Of the calls, only the one for the ABI record is about it. -/
theorem forall_abi_iff {pre post : List Exchange} {reply : ConnectReply} {p : ConnectReply → Prop}
    (hpre : ∀ x ∈ pre, x.call.selector ≠ kMarvellMethodGetDebugAbiInfo)
    (hpost : ∀ x ∈ post, x.call.selector ≠ kMarvellMethodGetDebugAbiInfo) :
    (∀ x ∈ pre ++ ⟨abiCall, reply⟩ :: post,
      x.call.selector = kMarvellMethodGetDebugAbiInfo → p x.reply) ↔ p reply := by
  constructor
  · intro h
    exact h ⟨abiCall, reply⟩ (by simp) rfl
  · intro h x hx hsel
    rcases List.mem_append.mp hx with hx | hx
    · exact absurd hsel (hpre x hx)
    · rcases List.mem_cons.mp hx with rfl | hx
      · exact h
      · exact absurd hsel (hpost x hx)

theorem selector_ne {xs : List Exchange} {sels : List UInt32} {selector : UInt32}
    (h : ∀ x ∈ xs, x.call.selector ∈ sels) {x : Exchange} (hx : x ∈ xs)
    (hsels : selector ∉ sels := by decide) : x.call.selector ≠ selector := by
  rintro rfl
  exact hsels (h x hx)

theorem not_failedV2 {xs : List Exchange} {sels : List UInt32}
    (h : ∀ x ∈ xs, x.call.selector ∈ sels)
    (hsels : kMarvellMethodGetBarInfoV2 ∉ sels := by decide) : ¬ ∃ x ∈ xs, x.FailedV2 := by
  rintro ⟨x, hx, hsel, -⟩
  exact selector_ne h hx hsels hsel

/-- The queries that use the counts of the record fit exactly if these counts do. -/
theorem reported_allFit_iff {reply : ConnectReply} {u : List ProbeEvent} {xs : List Exchange}
    {snapshots : Fin kMaxBars → BarInfoSnapshot} (hreports : reply.ReportsAbi)
    (hbars : Runs (queryBars reply.abiInfo) t snapshots)
    (htransport : Runs (getTransportState reply.abiInfo) u ())
    (hfailed : (∃ x ∈ xs, x.FailedV2) ↔ ∃ x ∈ exchanges t, x.FailedV2) :
    AllFit t ∧ AllFit u ↔ reply.CountsFit xs := by
  rw [ConnectReply.abiInfo, if_pos hreports] at hbars htransport
  have hqueried := (queried_queryBars rfl hbars).fits_iff
  rw [← hfailed] at hqueried
  have hstate : AllFit u ↔ (selectorSupported reply.selectorBitmap kMarvellMethodGetTransportState =
      true → (reply.out.getD 5 0).toUInt32.toNat ≤ 8) := by
    rcases runs_getTransportState rfl htransport with ⟨hlacks, hx⟩ | ⟨hhas, answer, hx⟩
    · refine iff_of_true (by simp [AllFit, hx]) ?_
      intro hs
      rw [hlacks] at hs
      simp at hs
    · simp only [AllFit, hx, List.forall_mem_singleton, hhas, true_imp_iff]
      rfl
  refine (and_congr hqueried hstate).trans ⟨?_, ?_⟩
  · rintro ⟨⟨hv2, hlegacy⟩, hstate⟩
    exact ⟨hv2, hlegacy, hstate⟩
  · intro hcounts
    exact ⟨⟨hcounts.v2, hcounts.legacy⟩, hcounts.transport⟩

/-- The calls of `diagnose` fit exactly if the counts of the record do, where there is one. -/
theorem diagnose_allFit_iff {options : ProbeOptions} (h : Runs (diagnose options) t ()) :
    AllFit t ↔ ∀ x ∈ exchanges t, x.call.selector = kMarvellMethodGetDebugAbiInfo →
      x.reply.ReportsAbi → x.reply.CountsFit (exchanges t) := by
  obtain ⟨t₁, _, r₁, rfl, hpci, h₁⟩ := runs_bind.mp h
  obtain ⟨t₂, abi, r₂, rfl, habi, h₂⟩ := runs_bind.mp h₁
  obtain ⟨t₃, _, r₃, rfl, hread, h₃⟩ := runs_bind.mp h₂
  obtain ⟨t₄, snapshots, r₄, rfl, hbars, h₄⟩ := runs_bind.mp h₃
  obtain ⟨t₅, _, r₅, rfl, hsummary, h₅⟩ := runs_bind.mp h₄
  obtain ⟨t₆, _, t₇, rfl, hbringup, htransport⟩ := runs_bind.mp h₅
  obtain ⟨reply, hx, rfl⟩ := runs_getDebugAbiInfo habi
  -- the selectors of the parts
  have hsel₁ : ∀ x ∈ exchanges t₁, x.call.selector ∈ [kMarvellMethodGetPciInfo] :=
    Calls.exchanges (calls_getPciInfo (by decide)) hpci
  have hsel₃ : ∀ x ∈ exchanges t₃, x.call.selector ∈ [kMarvellMethodReadReg32FromBar] := by
    intro x hx
    rw [(runs_explicitRead hread).mem x hx]
    exact List.mem_singleton_self _
  have hsel₄ : ∀ x ∈ exchanges t₄, x.call.selector ∈
      [kMarvellMethodGetBarInfoLegacy, kMarvellMethodGetBarInfoV2] :=
    Calls.exchanges (calls_queryBars (by decide) (by decide) _) hbars
  have hsel₅ : exchanges t₅ = [] := Calls.exchanges_nil (calls_printBarSummary _) hsummary
  have hsel₆ : ∀ x ∈ exchanges t₆, x.call.selector ∈ [kMarvellMethodGetBringupResult] :=
    Calls.exchanges (calls_getBringupResult (by decide) _) hbringup
  have hsel₇ : ∀ x ∈ exchanges t₇, x.call.selector ∈
      [kMarvellMethodGetTransportState, kLegacyMethodGetTransportState] :=
    Calls.exchanges (calls_getTransportState (by decide) (by decide) _) htransport
  have hxs : exchanges (t₁ ++ (t₂ ++ (t₃ ++ (t₄ ++ (t₅ ++ (t₆ ++ t₇)))))) =
      exchanges t₁ ++ ([⟨abiCall, reply⟩] ++
        (exchanges t₃ ++ (exchanges t₄ ++ (exchanges t₆ ++ exchanges t₇)))) := by
    simp only [exchanges_append, hx, hsel₅, List.nil_append]
  have habi₂ : AllFit t₂ := by
    intro x hmem
    rw [hx, List.mem_singleton] at hmem
    rw [hmem]
    exact Nat.le_refl 6
  have hfixed : AllFit t₁ ∧ AllFit t₂ ∧ AllFit t₃ ∧ AllFit t₅ ∧ AllFit t₆ :=
    ⟨allFit_getPciInfo _ _ hpci, habi₂, allFit_explicitRead _ _ _ _ hread,
      Calls.allFit (calls_printBarSummary _) _ _ hsummary, allFit_getBringupResult _ _ _ hbringup⟩
  simp only [allFit_append, hfixed, true_and]
  rw [hxs]
  refine Iff.trans ?_ (forall_abi_iff (p := fun reply => reply.ReportsAbi → reply.CountsFit _)
    ?_ ?_).symm
  · by_cases hreports : reply.ReportsAbi
    · rw [imp_iff_right hreports]
      refine reported_allFit_iff hreports hbars htransport ?_
      have hhave : reply.abiInfo.haveAbiInfo = true := by
        rw [ConnectReply.abiInfo, if_pos hreports]
      have hsel₂ : ∀ x ∈ [(⟨abiCall, reply⟩ : Exchange)],
          x.call.selector ∈ [kMarvellMethodGetDebugAbiInfo] := by simp [abiCall]
      have hnone₇ : ¬ ∃ x ∈ exchanges t₇, x.FailedV2 := by
        rcases runs_getTransportState hhave htransport with ⟨-, hx₇⟩ | ⟨-, answer, hx₇⟩
        · simp [hx₇]
        · rw [hx₇]
          rintro ⟨x, hmem, hsel, -⟩
          rw [List.mem_singleton.mp hmem] at hsel
          exact absurd hsel (show kMarvellMethodGetTransportState ≠ _ by decide)
      simp only [exists_mem_append, not_failedV2 hsel₁, not_failedV2 hsel₂, not_failedV2 hsel₃,
        not_failedV2 hsel₆, hnone₇, false_or, or_false]
    · have hdefault : reply.abiInfo = {} := if_neg hreports
      rw [hdefault] at hbars htransport
      refine iff_of_true ⟨allFit_queryBars _ _ hbars, allFit_getTransportState _ _ htransport⟩ ?_
      exact fun h => absurd h hreports
  · exact fun _ hmem => selector_ne hsel₁ hmem
  · intro x hmem
    change x ∈ exchanges t₃ ++ (exchanges t₄ ++ (exchanges t₆ ++ exchanges t₇)) at hmem
    simp only [List.mem_append] at hmem
    rcases hmem with hmem | hmem | hmem | hmem
    · exact selector_ne hsel₃ hmem
    · exact selector_ne hsel₄ hmem
    · exact selector_ne hsel₆ hmem
    · exact selector_ne hsel₇ hmem

/-- The probe stays inside its arrays exactly if the counts of the ABI record that it meets fit. -/
theorem main_inRange_iff {argv : List CString} {code : UInt32} (h : Runs (main argv) t code)
    (hkernel : ∀ x ∈ exchanges t, x.Kept) :
    InRange t ↔ ∀ x ∈ exchanges t, x.call.selector = kMarvellMethodGetDebugAbiInfo →
      x.reply.ReportsAbi → x.reply.CountsFit (exchanges t) := by
  have hfit : AllFit t ↔ ∀ x ∈ exchanges t, x.call.selector = kMarvellMethodGetDebugAbiInfo →
      x.reply.ReportsAbi → x.reply.CountsFit (exchanges t) := by
    unfold AllFit
    rcases runs_main h with hn | ⟨options, u, -, hu, he⟩
    · simp [hn]
    · rw [he]
      exact diagnose_allFit_iff hu
  rw [← hfit]
  constructor
  · intro hrange
    exact hrange.requested
  · intro hall
    refine ⟨hall, ?_, guarded_main argv t code h (fun x hx => ⟨hkernel x hx, hall x hx⟩)⟩
    intro x hx
    exact Nat.le_trans (hkernel x hx).written (hall x hx)

/-! ## Two kexts -/

instance {x : Exchange} : Decidable x.Kept :=
  decidable_of_iff (x.reply.out.length ≤ x.call.outCount.toNat ∧ x.reply.outCount ≤ x.call.outCount)
    ⟨fun h => ⟨h.1, h.2⟩, fun h => ⟨h.written, h.count⟩⟩

/-- A kext with this ABI record; it answers every other call with as many zeros as requested. -/
def kextWithAbi (record : List UInt64) (_asked : List ProbeEvent) : (op : ProbeOp) → op.Resp
  | .connectCall call =>
    if call.selector = kMarvellMethodGetDebugAbiInfo then ⟨kIOReturnSuccess, 6, record⟩
    else ⟨kIOReturnSuccess, call.outCount, List.replicate call.outCount.toNat 0⟩
  | .getMatchingService => true
  | .serviceOpen => kIOReturnSuccess
  | .readPast _ _ => (0 : UInt64)
  | .undefined => (0 : UInt32)
  | .objectRelease | .serviceClose | .print _ => ()

/-- `marvell_probe` without arguments. -/
def plainArgv : List CString := readArgv.take 1

/-- The record of the kext of this repository. -/
def currentAbi : List UInt64 := Debug.getDebugAbiInfo

theorem main_inRange_current :
    InRange ((main plainArgv).exec (kextWithAbi currentAbi) []).1 := by
  refine (main_inRange_iff (Program.runs_exec (kextWithAbi currentAbi) [] (main plainArgv))
    (by decide +kernel)).mpr ?_
  have hall : ∀ x ∈ exchanges ((main plainArgv).exec (kextWithAbi currentAbi) []).1,
      x.call.selector = kMarvellMethodGetDebugAbiInfo → x.reply.out = currentAbi := by
    decide +kernel
  intro x hx hsel _
  have hout := hall x hx hsel
  refine ⟨fun _ => ?_, fun _ _ => ?_, fun _ => ?_⟩
  all_goals
    rw [hout]
    decide

/-- Against a kext whose V2 record has 12 fields, the probe requests 12 scalars into 11. -/
theorem main_not_inRange :
    ¬ ∀ argv t code, Runs (main argv) t code → (∀ x ∈ exchanges t, x.Kept) → InRange t := by
  intro h
  have hrange := h plainArgv _ _ (Program.runs_exec
    (kextWithAbi [2, 9, 0x1FF, 8, 12, 8]) [] (main plainArgv)) (by decide +kernel)
  have hover : ∃ x ∈ exchanges ((main plainArgv).exec
      (kextWithAbi [2, 9, 0x1FF, 8, 12, 8]) []).1, ¬ x.call.outCount.toNat ≤ x.call.capacity := by
    decide +kernel
  obtain ⟨x, hx, hn⟩ := hover
  exact hn (hrange.requested x hx)

end Probe

end MarvellW8897
