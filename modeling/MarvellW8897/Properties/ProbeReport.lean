import Mathlib.Data.List.ReduceOption
import MarvellW8897.Effect.Emits
import MarvellW8897.Probe.Served
import MarvellW8897.Properties.Candidates
import MarvellW8897.Properties.Identity
import MarvellW8897.Properties.Probe
import MarvellW8897.Properties.Requests

/-!
# The report of the probe

What `marvell_probe` prints about an instance of this kext, while other clients make calls of their
own in between.

* `Shared` — the calls of the probe and of the others, one after another.
* `reportLines` — the lines, written down from the fields of the instance.
* `probe_reports` — the probe prints them, from every reachable state.
-/

namespace MarvellW8897

open Effect

variable {platform : Platform} {s s' : System} {c c' c₁ : Controller} {options : Probe.ProbeOptions}
  {b : Fin kMaxBars} {P : Controller → Prop}

/-! ## The instance during a run -/

/-- A step of the instance while the probe runs: a call of the probe, or one of another client. -/
inductive Shared (platform : Platform) : System → Option Probe.Exchange → System → Prop where
  | probe {s s' : System} {call : Probe.ConnectCall} {reply : Probe.ConnectReply}
      {t : List DeviceEvent} {r : Reply}
      (h : Step platform s ⟨.externalMethod call.selector call.arguments, t, .returned r⟩ s')
      (hret : reply.ret = r.ret)
      (hout : r.ret = kIOReturnSuccess →
        reply.outCount = call.outCount ∧ reply.out = r.scalarOutput) :
      Shared platform s (some ⟨call, reply⟩) s'
  | other {s s' : System} {selector : UInt32} {args : ExternalMethodArguments}
      {t : List DeviceEvent} {r : Reply}
      (h : Step platform s ⟨.externalMethod selector args, t, .returned r⟩ s') :
      Shared platform s none s'

/-- The records that no client can change are the same. -/
structure SameRecords (c c' : Controller) : Prop where
  identity : c'.identity = c.identity
  fPciBarState : c'.fPciBarState = c.fPciBarState
  fBringupResult : c'.fBringupResult = c.fBringupResult

theorem SameRecords.trans (h : SameRecords c c₁) (h' : SameRecords c₁ c') : SameRecords c c' :=
  ⟨h'.identity.trans h.identity, h'.fPciBarState.trans h.fPciBarState,
    h'.fBringupResult.trans h.fBringupResult⟩

theorem sameRecords_call {selector : UInt32} {args : ExternalMethodArguments}
    {t : List DeviceEvent} {r : Reply}
    (h : Step platform s ⟨.externalMethod selector args, t, .returned r⟩ s') :
    SameRecords s.controller s'.controller := by
  cases h with
  | externalMethod hr => cases runs_call hr <;> exact ⟨rfl, rfl, rfl⟩

theorem sameRecords_shared {l : Option Probe.Exchange} (h : Shared platform s l s') :
    SameRecords s.controller s'.controller := by
  cases h with
  | probe h _ _ => exact sameRecords_call h
  | other h => exact sameRecords_call h

theorem sameRecords_path {ls : List (Option Probe.Exchange)}
    (h : Path (Shared platform) s ls s') : SameRecords s.controller s'.controller := by
  induction h with
  | nil => exact ⟨rfl, rfl, rfl⟩
  | snoc _ hs ih => exact ih.trans (sameRecords_shared hs)

/-- `c` is what the instance was at some moment of the steps `ls` from `s`. -/
def During (platform : Platform) (s : System) (ls : List (Option Probe.Exchange))
    (c : Controller) : Prop :=
  ∃ before after s', ls = before ++ after ∧ Path (Shared platform) s before s' ∧ s'.controller = c

theorem During.sameRecords {ls : List (Option Probe.Exchange)} (h : During platform s ls c) :
    SameRecords s.controller c := by
  obtain ⟨before, after, s', -, hpath, rfl⟩ := h
  exact sameRecords_path hpath

/-- An instance that satisfies `P` gives this back. -/
def Genuine (platform : Platform) (P : Controller → Prop) (x : Probe.Exchange) : Prop :=
  ∃ c t r c', P c ∧
    Runs (externalMethod platform c x.call.selector x.call.arguments) t (r, c') ∧
    x.reply.ret = r.ret ∧
    (r.ret = kIOReturnSuccess → x.reply.outCount = x.call.outCount ∧ x.reply.out = r.scalarOutput)

/-- What the probe is given by the instance of some moment of the run. -/
theorem genuine_of_path {ls : List (Option Probe.Exchange)} {x : Probe.Exchange}
    (h : Path (Shared platform) s ls s') (hx : some x ∈ ls) :
    Genuine platform (During platform s ls) x := by
  obtain ⟨before, after, rfl⟩ := List.append_of_mem hx
  obtain ⟨s₁, hbefore, hrest⟩ := h.split
  obtain ⟨s₂, hstep, -⟩ := hrest.of_cons
  cases hstep with
  | probe hs hret hout =>
    cases hs with
    | externalMethod hr => exact ⟨_, _, _, _, ⟨before, _, s₁, rfl, hbefore, rfl⟩, hr, hret, hout⟩

/-! ## The lines of a report -/

namespace Probe

def printed : ProbeEvent → Option Line
  | ⟨.print line, _⟩ => some line
  | _ => none

/-- The values of a record, one line each. -/
def valueLines (line : UInt32 → UInt64 → Line) (record : List UInt64) : List Line :=
  (List.range record.length).map fun i => line (UInt32.ofNat i) (record.getD i 0)

/-- A record that was answered in full. -/
def recordLines (selector : UInt32) (record : List UInt64) : List Line :=
  .returned selector kIOReturnSuccess (UInt32.ofNat record.length) ::
    valueLines (.field selector) record

/-- The V2 record of a slot that was answered. -/
def barLines (bar : UInt32) (record : List UInt64) : List Line :=
  .barInfo kMarvellMethodGetBarInfoV2 bar 11 kIOReturnSuccess 11 ::
    valueLines (.barField bar) record

/-- The lines of the summary about one slot. -/
def summaryLine (snapshots : Fin kMaxBars → BarInfoSnapshot) (bar : Fin kMaxBars) : List Line :=
  .barSummary bar (some (snapshots bar).summary) ::
    ((snapshots bar).candidate.map (.candidate bar)).toList

def summaryLines (snapshots : Fin kMaxBars → BarInfoSnapshot) : List Line :=
  .summaryHeader :: (List.finRange kMaxBars).flatMap (summaryLine snapshots) ++
    (if ∀ bar, (snapshots bar).candidate = none then [.noCandidates] else []) ++ [.summaryNote]

/-- The service is there and opens, and an instance that satisfies `P` answers. -/
def Attached (platform : Platform) (P : Controller → Prop) : ProbeEvent → Prop
  | ⟨.connectCall call, reply⟩ => Genuine platform P ⟨call, reply⟩
  | ⟨.getMatchingService, found⟩ => found = true
  | ⟨.serviceOpen, kr⟩ => kr = kIOReturnSuccess
  | _ => True

end Probe

/-- The V2 record of slot `b`. -/
def Controller.barRecord (c : Controller) (b : Fin kMaxBars) : List UInt64 :=
  let slot := c.fPciBarState.bars b
  barInfoV2Fields (UInt32.ofNat b.val) slot
    (if h : slot.mappedResource.toNat < kMaxResources then
      (c.fPciBarState.resources ⟨slot.mappedResource.toNat, h⟩).physicalAddress
    else 0)

/-- In a consistent table, that is what `getBarInfoV2` gives. -/
theorem barRecord_eq {t : List DeviceEvent} {out : Option (List UInt64)}
    (hc : PciBars.Consistent c.fPciBarState)
    (h : Runs (PciBars.getBarInfoV2 c.fPciBarState (UInt32.ofNat b.val)) t out) :
    out = some (c.barRecord b) := by
  have hb : (UInt32.ofNat b.val).toNat = b.val :=
    UInt32.toNat_ofNat_of_lt' (lt_trans b.isLt (by decide))
  rcases runs_getBarInfoV2 h with ⟨b', address, hb', rfl, haddress⟩ | ⟨hge, -, -⟩
  · obtain rfl : b' = b := Fin.ext (hb'.symm.trans hb)
    unfold Controller.barRecord barInfoV2Fields
    dsimp only
    rcases haddress with ⟨hn, -, rfl⟩ | ⟨hne, hread⟩
    · rw [hn, dif_neg (by decide)]
    · rcases hc.slot b' with hn | ⟨i, -, hi, -⟩
      · exact absurd hn hne
      · rcases runs_resourcePhysicalAddress hread with ⟨j, hj, -, rfl⟩ | ⟨hge, -⟩
        · rw [dif_pos (by rw [hj]; exact j.isLt)]
          simp only [hj]
        · rw [show (c.fPciBarState.bars b').mappedResource = UInt32.ofNat i.val from hi,
            UInt32.toNat_ofNat_of_lt' (lt_trans i.isLt (by decide))] at hge
          exact absurd i.isLt (Nat.not_lt.mpr hge)
  · rw [hb] at hge
    exact absurd b.isLt (Nat.not_lt.mpr hge)

/-- The lines of the explicit register read: the value that was loaded, or the refusal. -/
def ReadLines (c : Controller) (options : Probe.ProbeOptions) (lines : List Probe.Line) : Prop :=
  let bar := options.readBar
  let offset := options.readOffset
  if options.readBarReg then
    ((∃ w, PciBars.Access c.fPciBarState bar offset w) ∧ ∃ value : UInt32,
      lines = [.warning bar offset,
        .registerRead bar offset kIOReturnSuccess 1 (some value.toUInt64)]) ∨
    ((¬ ∃ w, PciBars.Access c.fPciBarState bar offset w) ∧ ∃ outCount : UInt32,
      lines = [.warning bar offset,
        .registerRead bar offset kIOReturnBadArgument outCount none, .readFailed])
  else lines = []

/-- The report on the instance `c`, with the lines of the explicit read and the transport record. -/
def reportLines (c : Controller) (read : List Probe.Line) (transport : List UInt64) :
    List Probe.Line :=
  Probe.recordLines 0 c.getPciIdentity ++ (Probe.recordLines 7 Debug.getDebugAbiInfo ++ (read ++
    ((List.finRange kMaxBars).flatMap (fun b =>
      Probe.barLines (UInt32.ofNat b.val) (c.barRecord b)) ++
    (Probe.summaryLines (fun b => snapshotOf (c.barRecord b)) ++
    (Probe.recordLines 8 c.getBringupResult ++ Probe.recordLines 5 transport)))))

/-! ## Calls -/

namespace Probe

variable {call : ConnectCall} {reply : ConnectReply} {n : Nat}

/-- A record selector answers with the record of the instance. -/
theorem genuine_record {i : Fin kMarvellMethodCount} {fields : Controller → List UInt64}
    {count : UInt32} (hhandler : (gDispatchTable i).1 = replyFields fields)
    (hcounts : (gDispatchTable i).2 = scalarCounts 0 count)
    (hselector : call.selector.toNat = i.val)
    (hinput : call.input = []) (hcount : call.outCount = count)
    (h : Genuine platform P ⟨call, reply⟩) :
    ∃ c, P c ∧ reply = ⟨kIOReturnSuccess, count, fields c⟩ := by
  obtain ⟨c, t, r, c', hc, hr, hret, hout⟩ := h
  have hadmitted : Admitted call.selector call.arguments i := by
    refine ⟨hselector, ?_⟩
    rw [hcounts]
    exact ⟨by rw [ConnectCall.arguments, hinput]; rfl, rfl, hcount, rfl⟩
  rw [externalMethod_of_admitted hadmitted, hhandler] at hr
  obtain ⟨-, he⟩ := runs_pure.mp hr
  obtain ⟨rfl, -⟩ := Prod.mk.inj he
  obtain ⟨hcount', hfields⟩ := hout rfl
  refine ⟨c, hc, ?_⟩
  obtain ⟨ret, outCount, out⟩ := reply
  obtain rfl : ret = kIOReturnSuccess := hret
  obtain rfl : outCount = count := hcount'.trans hcount
  obtain rfl : out = fields c := hfields
  rfl

/-- The V2 query of a slot answers with its record. -/
theorem genuine_bar (hc : PciBars.Consistent c.fPciBarState)
    (hP : ∀ c₁, P c₁ → SameRecords c c₁)
    (h : Genuine platform P ⟨{ selector := kMarvellMethodGetBarInfoV2
                               input := [(UInt32.ofNat b.val).toUInt64]
                               capacity := 11, outCount := 11 }, reply⟩) :
    reply = ⟨kIOReturnSuccess, 11, c.barRecord b⟩ := by
  obtain ⟨c₁, t, r, c', hc₁, hr, hret, hout⟩ := h
  have hbars := (hP c₁ hc₁).fPciBarState
  have hwide : (UInt32.ofNat b.val).toUInt64.toUInt32 = UInt32.ofNat b.val := by simp
  rw [externalMethod_of_admitted (i := 4) ⟨rfl, rfl, rfl, rfl, rfl⟩] at hr
  obtain ⟨t₁, out, t₂, -, hinfo, hend⟩ := runs_bind.mp hr
  obtain ⟨-, he⟩ := runs_pure.mp hend
  obtain ⟨rfl, -⟩ := Prod.mk.inj he
  change Runs (PciBars.getBarInfoV2 c₁.fPciBarState
    (UInt32.ofNat b.val).toUInt64.toUInt32) t₁ out at hinfo
  rw [hbars, hwide] at hinfo
  obtain rfl := barRecord_eq hc hinfo
  obtain ⟨ret, outCount, out⟩ := reply
  obtain rfl : ret = kIOReturnSuccess := hret
  obtain ⟨hcount, hrecord⟩ := hout rfl
  obtain rfl : outCount = 11 := hcount
  obtain rfl : out = c.barRecord b := hrecord
  rfl

/-- The read of a register answers a value exactly if the kext grants the register. -/
theorem genuine_read {bar offset : UInt32} (hP : ∀ c₁, P c₁ → SameRecords c c₁)
    (h : Genuine platform P ⟨readCall bar offset, reply⟩) :
    ((∃ w, PciBars.Access c.fPciBarState bar offset w) ∧
        ∃ value : UInt32, reply = ⟨kIOReturnSuccess, 1, [value.toUInt64]⟩) ∨
      ((¬ ∃ w, PciBars.Access c.fPciBarState bar offset w) ∧ reply.ret = kIOReturnBadArgument) := by
  obtain ⟨c₁, t, r, c', hc₁, hr, hret, hout⟩ := h
  have hbars := (hP c₁ hc₁).fPciBarState
  have hbar : (readCall bar offset).arguments.bar = bar := by
    show bar.toUInt64.toUInt32 = bar
    simp
  have hoffset : (readCall bar offset).arguments.offset = offset := by
    show offset.toUInt64.toUInt32 = offset
    simp
  rw [externalMethod_of_admitted (i := 2) ⟨rfl, rfl, rfl, rfl, rfl⟩] at hr
  rcases runs_sReadReg32FromBar.mp hr with ⟨w, raw, hw, -, he⟩ | ⟨hn, -, he⟩
  · obtain ⟨rfl, -⟩ := Prod.mk.inj he
    rw [hbars, hbar, hoffset] at hw
    refine Or.inl ⟨⟨w, hw⟩, osSwapLittleToHostInt32 platform.host raw, ?_⟩
    obtain ⟨ret, outCount, out⟩ := reply
    obtain rfl : ret = kIOReturnSuccess := hret
    obtain ⟨hcount, hvalue⟩ := hout rfl
    obtain rfl : outCount = 1 := hcount
    obtain rfl : out = [(osSwapLittleToHostInt32 platform.host raw).toUInt64] := hvalue
    rfl
  · obtain ⟨rfl, -⟩ := Prod.mk.inj he
    rw [hbars, hbar, hoffset] at hn
    exact Or.inr ⟨hn, hret⟩

/-! ## The parts of a report -/

theorem emits_print (line : Line) :
    Emits (Attached platform P) printed (print line) fun xs _ => xs = [line] :=
  emits_ask fun _ _ => rfl

theorem emits_call {selector outCount : UInt32} {input : List UInt64} {out : Fin n → UInt64}
    {Q : List Line → IOReturn × UInt32 × (Fin n → UInt64) → Prop}
    (h : ∀ reply, Genuine platform P ⟨{ selector, input, capacity := n, outCount }, reply⟩ →
      Q [] (reply.ret, reply.outCount, fill out reply.out)) :
    Emits (Attached platform P) printed (callScalarMethod selector input out outCount) Q := by
  refine Emits.bind (Q := fun xs reply => xs = [] ∧ Genuine platform P
    ⟨{ selector, input, capacity := n, outCount }, reply⟩) (emits_ask fun reply hreply => ?_) ?_
  · exact ⟨rfl, hreply⟩
  · rintro xs reply ⟨rfl, hreply⟩
    exact emits_pure (h reply hreply)

/-- The values of a record that fills the array. -/
theorem emits_printFields {line : UInt32 → UInt64 → Line} {record : List UInt64} {count : UInt32}
    (hlength : record.length = n) (hcount : count.toNat = n) :
    Emits (Attached platform P) printed
      (printFields (n := n) line (fill (fun _ => 0) record) count)
      fun xs _ => xs = valueLines line record := by
  unfold printFields
  rw [hcount]
  refine (emits_forM (h := fun i => [line (UInt32.ofNat i) (record.getD i 0)]) ?_).mono ?_
  · intro i hi
    unfold readOut
    rw [dif_pos (List.mem_range.mp hi)]
    exact emits_print _
  · rintro xs - rfl
    rw [valueLines, hlength]
    exact List.map_eq_flatMap.symm

theorem emits_getPciInfo (hP : ∀ c₁, P c₁ → SameRecords c c₁) :
    Emits (Attached platform P) printed getPciInfo
      fun xs _ => xs = recordLines 0 c.getPciIdentity := by
  refine Emits.bind (Q := fun xs r => xs = [] ∧
    r = (kIOReturnSuccess, 10, fill (fun _ => 0) c.getPciIdentity)) (emits_call ?_) ?_
  · intro reply hreply
    obtain ⟨c₁, hc₁, rfl⟩ := genuine_record (i := 0) rfl rfl rfl rfl rfl hreply
    have hid : c₁.getPciIdentity = c.getPciIdentity :=
      congrArg Identity.fields (hP c₁ hc₁).identity
    rw [hid]
    exact ⟨rfl, rfl⟩
  · rintro xs r ⟨rfl, rfl⟩
    refine Emits.bind (emits_print _) ?_
    rintro ys - rfl
    rw [if_pos rfl]
    refine (emits_printFields (show c.getPciIdentity.length = 10 from rfl) rfl).mono ?_
    rintro zs - rfl
    rfl

/-- The locals that the ABI record of this kext sets. -/
def currentAbiInfo : AbiInfo where
  haveAbiInfo := true
  selectorBitmap := Debug.kDebugSelectorBitmap
  legacyBarCount := 8
  v2BarCount := 11
  transportCount := 8

theorem emits_getDebugAbiInfo :
    Emits (Attached platform P) printed getDebugAbiInfo
      fun xs abi => xs = recordLines 7 Debug.getDebugAbiInfo ∧ abi = currentAbiInfo := by
  refine Emits.bind (Q := fun xs r => xs = [] ∧
    r = (kIOReturnSuccess, 6, fill (fun _ => 0) Debug.getDebugAbiInfo)) (emits_call ?_) ?_
  · intro reply hreply
    obtain ⟨c₁, hc₁, rfl⟩ := genuine_record (i := 7) rfl rfl rfl rfl rfl hreply
    exact ⟨rfl, rfl⟩
  · rintro xs r ⟨rfl, rfl⟩
    refine Emits.bind (emits_print _) ?_
    rintro ys - rfl
    rw [if_pos ⟨rfl, by decide⟩]
    refine Emits.bind (emits_printFields (show Debug.getDebugAbiInfo.length = 6 from rfl) rfl) ?_
    rintro zs - rfl
    exact emits_pure ⟨rfl, rfl⟩

/-- The explicit read loads a value exactly if the kext grants the register. -/
theorem emits_readBarReg {bar offset : UInt32} (hP : ∀ c₁, P c₁ → SameRecords c c₁) :
    Emits (Attached platform P) printed (explicitReadBarReg bar offset)
      fun xs ok =>
        (ok = true ∧ (∃ w, PciBars.Access c.fPciBarState bar offset w) ∧ ∃ value : UInt32,
          xs = [.warning bar offset,
            .registerRead bar offset kIOReturnSuccess 1 (some value.toUInt64)]) ∨
        (ok = false ∧ (¬ ∃ w, PciBars.Access c.fPciBarState bar offset w) ∧ ∃ outCount : UInt32,
          xs = [.warning bar offset,
            .registerRead bar offset kIOReturnBadArgument outCount none]) := by
  refine Emits.bind (emits_print _) ?_
  rintro xs - rfl
  refine Emits.bind (Q := fun xs r => xs = [] ∧
    (((∃ w, PciBars.Access c.fPciBarState bar offset w) ∧ ∃ value : UInt32,
        r = (kIOReturnSuccess, 1, fun _ => value.toUInt64)) ∨
      ((¬ ∃ w, PciBars.Access c.fPciBarState bar offset w) ∧ r.1 = kIOReturnBadArgument)))
    (emits_call ?_) ?_
  · intro reply hreply
    rcases genuine_read hP hreply with ⟨hw, value, rfl⟩ | ⟨hn, hret⟩
    · refine ⟨rfl, Or.inl ⟨hw, value, ?_⟩⟩
      congr 2
      funext i
      rw [Fin.fin_one_eq_zero i]
      rfl
    · exact ⟨rfl, Or.inr ⟨hn, hret⟩⟩
  · rintro ys r ⟨rfl, ⟨hw, value, rfl⟩ | ⟨hn, hret⟩⟩
    · refine Emits.bind (emits_print _) ?_
      rintro zs - rfl
      exact emits_pure (Or.inl ⟨rfl, hw, value, rfl⟩)
    · obtain ⟨kr, outCount, out⟩ := r
      obtain rfl : kr = kIOReturnBadArgument := hret
      refine Emits.bind (emits_print _) ?_
      rintro zs - rfl
      exact emits_pure (Or.inr ⟨rfl, hn, outCount, rfl⟩)

theorem emits_explicitRead (hP : ∀ c₁, P c₁ → SameRecords c c₁) :
    Emits (Attached platform P) printed (explicitRead currentAbiInfo options)
      fun xs _ => ReadLines c options xs := by
  unfold explicitRead
  by_cases hread : options.readBarReg = true
  · rw [if_pos hread, if_neg (by decide)]
    refine Emits.bind (emits_readBarReg hP) ?_
    rintro xs ok (⟨rfl, hw, value, rfl⟩ | ⟨rfl, hn, outCount, rfl⟩)
    · refine emits_pure ?_
      rw [ReadLines, if_pos hread]
      exact Or.inl ⟨hw, value, rfl⟩
    · rw [if_pos (by simp)]
      refine (emits_print _).mono ?_
      rintro ys - rfl
      rw [ReadLines, if_pos hread]
      exact Or.inr ⟨hn, outCount, rfl⟩
  · rw [if_neg hread]
    refine emits_pure ?_
    rw [ReadLines, if_neg hread]

/-- A V2 query of one slot. -/
theorem emits_tryGetBarInfo (hc : PciBars.Consistent c.fPciBarState)
    (hP : ∀ c₁, P c₁ → SameRecords c c₁) (snapshot : BarInfoSnapshot) :
    Emits (Attached platform P) printed (tryGetBarInfo kMarvellMethodGetBarInfoV2
        (UInt32.ofNat b.val) 11 (some snapshot))
      fun xs r => xs = barLines (UInt32.ofNat b.val) (c.barRecord b) ∧
        r = (true, some (snapshotOf (c.barRecord b))) := by
  refine Emits.bind (Q := fun xs r => xs = [] ∧
    r = (kIOReturnSuccess, 11, fill (fun _ => 0) (c.barRecord b))) (emits_call ?_) ?_
  · intro reply hreply
    rw [genuine_bar hc hP hreply]
    exact ⟨rfl, rfl⟩
  · rintro xs r ⟨rfl, rfl⟩
    refine Emits.bind (emits_print _) ?_
    rintro ys - rfl
    rw [if_neg (by simp)]
    refine Emits.bind (emits_printFields (show (c.barRecord b).length = 11 from rfl) rfl) ?_
    rintro zs - rfl
    exact emits_pure ⟨rfl, rfl⟩

theorem emits_queryBar (hc : PciBars.Consistent c.fPciBarState)
    (hP : ∀ c₁, P c₁ → SameRecords c c₁) (snapshots : Fin kMaxBars → BarInfoSnapshot) :
    Emits (Attached platform P) printed (queryBar currentAbiInfo snapshots b)
      fun xs r => xs = barLines (UInt32.ofNat b.val) (c.barRecord b) ∧
        r = Function.update snapshots b (snapshotOf (c.barRecord b)) := by
  have hquery : Emits (Attached platform P) printed
      (queryByAbi currentAbiInfo (UInt32.ofNat b.val) (snapshots b))
      fun xs r => xs = barLines (UInt32.ofNat b.val) (c.barRecord b) ∧
        r = (true, some (snapshotOf (c.barRecord b))) := by
    unfold queryByAbi queryAdvertised queryAdvertisedV2
    rw [if_pos (show currentAbiInfo.haveAbiInfo = true from rfl), if_pos (by decide)]
    refine Emits.bind (emits_tryGetBarInfo hc hP (snapshots b)) ?_
    rintro xs r ⟨rfl, rfl⟩
    exact emits_pure ⟨by simp, rfl⟩
  refine Emits.bind hquery ?_
  rintro xs r ⟨rfl, rfl⟩
  dsimp only
  rw [if_neg (by simp)]
  exact emits_pure ⟨by simp, rfl⟩

theorem foldl_update {ι κ : Type} [DecidableEq ι] (g : ι → κ) (l : List ι) (s : ι → κ) :
    l.foldl (fun s x => Function.update s x (g x)) s = fun x => if x ∈ l then g x else s x := by
  induction l generalizing s with
  | nil => simp
  | cons x l ih =>
    rw [List.foldl_cons, ih]
    funext y
    by_cases hy : y = x
    · simp [hy]
    · simp [hy]

theorem emits_queryBars (hc : PciBars.Consistent c.fPciBarState)
    (hP : ∀ c₁, P c₁ → SameRecords c c₁) :
    Emits (Attached platform P) printed (queryBars currentAbiInfo)
      fun xs r => xs = (List.finRange kMaxBars).flatMap (fun b =>
          barLines (UInt32.ofNat b.val) (c.barRecord b)) ∧
        r = fun b => snapshotOf (c.barRecord b) := by
  have hloop : Emits (Attached platform P) printed (queryBars currentAbiInfo) fun xs r => _ ∧ _ :=
    emits_foldlM fun snapshots b _ => emits_queryBar hc hP (b := b) snapshots
  refine hloop.mono ?_
  rintro xs r ⟨rfl, rfl⟩
  refine ⟨rfl, ?_⟩
  rw [foldl_update]
  funext b
  exact if_pos (List.mem_finRange b)

theorem emits_printBar {snapshots : Fin kMaxBars → BarInfoSnapshot}
    (hvalid : (snapshots b).valid = true) (saw : Bool) :
    Emits (Attached platform P) printed (printBar snapshots saw b)
      fun xs r => xs = summaryLine snapshots b ∧ r = (saw || (snapshots b).candidate.isSome) := by
  unfold printBar
  rw [if_neg (by simp [hvalid])]
  refine Emits.bind (emits_print _) ?_
  rintro xs - rfl
  unfold summaryLine
  cases (snapshots b).candidate with
  | none => exact emits_pure ⟨rfl, by simp⟩
  | some mapped =>
    refine Emits.bind (emits_print _) ?_
    rintro ys - rfl
    exact emits_pure ⟨rfl, by simp⟩

theorem foldl_or {ι : Type} (p : ι → Bool) (l : List ι) (saw : Bool) :
    l.foldl (fun saw x => saw || p x) saw = (saw || l.any p) := by
  induction l generalizing saw with
  | nil => simp
  | cons x l ih => rw [List.foldl_cons, ih, List.any_cons, Bool.or_assoc]

theorem emits_printBarSummary {snapshots : Fin kMaxBars → BarInfoSnapshot}
    (hvalid : ∀ b, (snapshots b).valid = true) :
    Emits (Attached platform P) printed (printBarSummary snapshots)
      fun xs _ => xs = summaryLines snapshots := by
  have hany : (List.finRange kMaxBars).any (fun b => (snapshots b).candidate.isSome) = false ↔
      ∀ b, (snapshots b).candidate = none := by simp
  refine Emits.bind (emits_print _) ?_
  rintro xs - rfl
  refine Emits.bind (emits_foldlM fun saw b _ => emits_printBar (hvalid b) saw) ?_
  rintro ys saw ⟨rfl, rfl⟩
  rw [foldl_or, Bool.false_or]
  unfold summaryLines
  by_cases hnone : ∀ b, (snapshots b).candidate = none
  · rw [if_pos hnone, hany.mpr hnone, if_pos (show (!false) = true from rfl)]
    refine Emits.bind (emits_print _) ?_
    rintro zs - rfl
    refine (emits_print _).mono ?_
    rintro us - rfl
    simp
  · rw [if_neg hnone, if_neg (by simpa [hany] using hnone)]
    refine (emits_print _).mono ?_
    rintro us - rfl
    simp

theorem emits_getBringupResult (hP : ∀ c₁, P c₁ → SameRecords c c₁) :
    Emits (Attached platform P) printed (getBringupResult currentAbiInfo)
      fun xs _ => xs = recordLines 8 c.getBringupResult := by
  unfold getBringupResult
  rw [if_pos (by decide)]
  refine Emits.bind (Q := fun xs r => xs = [] ∧
    r = (kIOReturnSuccess, 12, fill (fun _ => 0) c.getBringupResult)) (emits_call ?_) ?_
  · intro reply hreply
    obtain ⟨c₁, hc₁, rfl⟩ := genuine_record (i := 8) rfl rfl rfl rfl rfl hreply
    have hresult : c₁.getBringupResult = c.getBringupResult :=
      congrArg Bringup.fields (hP c₁ hc₁).fBringupResult
    rw [hresult]
    exact ⟨rfl, rfl⟩
  · rintro xs r ⟨rfl, rfl⟩
    refine Emits.bind (emits_print _) ?_
    rintro ys - rfl
    rw [if_pos ⟨rfl, by decide⟩]
    refine (emits_forM (h := fun i => [.field kMarvellMethodGetBringupResult
      (UInt32.ofNat i.val) (fill (fun _ => 0) c.getBringupResult i)])
      fun i _ => emits_print _).mono ?_
    rintro zs - rfl
    rfl

/-- The transport record is that of the moment of the call. -/
theorem emits_getTransportState :
    Emits (Attached platform P) printed (getTransportState currentAbiInfo)
      fun xs _ => ∃ c₁, P c₁ ∧ xs = recordLines 5 c₁.getTransportState := by
  unfold getTransportState
  rw [if_neg (by decide)]
  refine Emits.bind (Q := fun xs r => xs = [] ∧ ∃ c₁, P c₁ ∧
    r = (kIOReturnSuccess, 8, fill (fun _ => 0) c₁.getTransportState)) (emits_call ?_) ?_
  · intro reply hreply
    obtain ⟨c₁, hc₁, rfl⟩ := genuine_record (i := 5) rfl rfl rfl rfl rfl hreply
    exact ⟨rfl, c₁, hc₁, rfl⟩
  · rintro xs r ⟨rfl, c₁, hc₁, rfl⟩
    dsimp only
    rw [if_neg (by decide)]
    refine Emits.bind (emits_print _) ?_
    rintro ys - rfl
    rw [if_pos rfl]
    refine (emits_printFields (show c₁.getTransportState.length = 8 from rfl) rfl).mono ?_
    rintro zs - rfl
    exact ⟨c₁, hc₁, rfl⟩

theorem emits_diagnose (hc : PciBars.Consistent c.fPciBarState)
    (hP : ∀ c₁, P c₁ → SameRecords c c₁) :
    Emits (Attached platform P) printed (diagnose options) fun xs _ =>
      ∃ read c₁, ReadLines c options read ∧ P c₁ ∧
        xs = reportLines c read c₁.getTransportState := by
  refine Emits.bind (emits_getPciInfo hP) ?_
  rintro pci - rfl
  refine Emits.bind emits_getDebugAbiInfo ?_
  rintro abi r ⟨rfl, rfl⟩
  refine Emits.bind (emits_explicitRead hP) ?_
  intro read _ hread
  refine Emits.bind (emits_queryBars hc hP) ?_
  rintro bars snapshots ⟨rfl, rfl⟩
  refine Emits.bind (emits_printBarSummary fun b => rfl) ?_
  rintro summary - rfl
  refine Emits.bind (emits_getBringupResult hP) ?_
  rintro bringup - rfl
  refine emits_getTransportState.mono ?_
  rintro transport - ⟨c₁, hc₁, rfl⟩
  exact ⟨read, c₁, hread, hc₁, rfl⟩

theorem emits_main {argv : List CString} (hargv : parseOptions argv = .accepted options)
    (hc : PciBars.Consistent c.fPciBarState) (hP : ∀ c₁, P c₁ → SameRecords c c₁) :
    Emits (Attached platform P) printed (main argv) fun xs code => code = 0 ∧
      ∃ read c₁, ReadLines c options read ∧ P c₁ ∧
        xs = reportLines c read c₁.getTransportState := by
  unfold main
  rw [hargv]
  refine Emits.bind (Q := fun xs found => xs = [] ∧ found = true)
    (emits_ask fun found hfound => ⟨rfl, hfound⟩) ?_
  rintro xs found ⟨rfl, rfl⟩
  rw [if_neg (by simp)]
  refine Emits.bind (Q := fun xs kr => xs = [] ∧ kr = kIOReturnSuccess)
    (emits_ask fun kr hkr => ⟨rfl, hkr⟩) ?_
  rintro xs kr ⟨rfl, rfl⟩
  refine Emits.bind (Q := fun xs _ => xs = []) (emits_ask fun _ _ => rfl) ?_
  rintro xs - rfl
  rw [if_neg (by simp)]
  refine Emits.bind (emits_diagnose hc hP) ?_
  rintro xs - ⟨read, c₁, hread, hc₁, rfl⟩
  refine Emits.bind (Q := fun xs _ => xs = []) (emits_ask fun _ _ => rfl) ?_
  rintro ys - rfl
  exact emits_pure ⟨rfl, read, c₁, hread, hc₁, by simp⟩

end Probe

/-! ## The whole -/

/-- The service of the instance is there, and opens. -/
def Probe.Opens : Probe.ProbeEvent → Prop
  | ⟨.getMatchingService, found⟩ => found = true
  | ⟨.serviceOpen, kr⟩ => kr = kIOReturnSuccess
  | _ => True

/--
From every reachable state, and whatever calls other clients make in between: a probe that finds
the instance and is answered by it exits with 0 and prints the records of the instance. The explicit
read reports a value exactly if the kext grants the register; the transport record, the only one
that others can change, is that of some moment of the run.
-/
theorem probe_reports {calls : List CallRecord} {argv : List Probe.CString}
    {t : List Probe.ProbeEvent} {code : UInt32} {ls : List (Option Probe.Exchange)}
    (h : Run platform boot calls s) (hargv : Probe.parseOptions argv = .accepted options)
    (hrun : Runs (Probe.main argv) t code) (hopens : ∀ e ∈ t, Probe.Opens e)
    (hpath : Path (Shared platform) s ls s') (hserved : ls.reduceOption = Probe.exchanges t) :
    code = 0 ∧ ∃ read c₁, ReadLines s.controller options read ∧ During platform s ls c₁ ∧
      shown Probe.printed t = reportLines s.controller read c₁.getTransportState := by
  have hattached : ∀ e ∈ t, Probe.Attached platform (During platform s ls) e := by
    intro e he
    obtain ⟨op, v⟩ := e
    cases op with
    | connectCall call =>
      have hx : (⟨call, v⟩ : Probe.Exchange) ∈ Probe.exchanges t :=
        List.mem_filterMap.mpr ⟨_, he, rfl⟩
      rw [← hserved, List.reduceOption_mem_iff] at hx
      exact genuine_of_path hpath hx
    | getMatchingService => exact hopens _ he
    | serviceOpen => exact hopens _ he
    | _ => trivial
  exact Probe.emits_main hargv (consistent_of_run h).1 (fun c₁ hc₁ => hc₁.sameRecords) t code hrun
    hattached

/-- Calls that the instance serves one after another, without another client. -/
theorem shared_serveAll {env : Environment} (past : List DeviceEvent) (s : System)
    (calls : List Probe.ConnectCall) :
    Path (Shared platform) s
      (((serveAll platform env past s calls).1.map ServedCall.exchange).map some)
      (serveAll platform env past s calls).2 := by
  induction calls generalizing past s with
  | nil => exact Path.nil
  | cons call calls ih =>
    refine Path.cons (Shared.probe (Step.externalMethod (Program.runs_exec env past
      (externalMethod platform s.controller call.selector call.arguments))) rfl
      (fun _ => ⟨rfl, rfl⟩)) (ih _ _)

theorem reduceOption_some {α : Type} (l : List α) : (l.map some).reduceOption = l := by
  induction l with
  | nil => rfl
  | cons x l ih => rw [List.map_cons, List.reduceOption_cons_of_some, ih]

/-- The instance as the environment of the probe lets it find and open the service. -/
theorem opens_of_answered {env : Environment} {past : List DeviceEvent}
    {asked t : List Probe.ProbeEvent} (h : Effect.Answered (respond platform env past s) asked t) :
    ∀ e ∈ t, Probe.Opens e := by
  induction t generalizing asked with
  | nil => simp
  | cons e t ih =>
    obtain ⟨he, ht⟩ := h
    intro d hd
    rcases List.mem_cons.mp hd with rfl | hd
    · obtain ⟨op, v⟩ := d
      cases op with
      | getMatchingService => exact he
      | serviceOpen => exact he
      | _ => trivial
    · exact ih ht d hd

/-- Another client writes a register with flush; then the probe reads one and reports. -/
theorem probe_reports_read :
    let s := (play littleEndianPlatform device8897.environment [] boot [.start]).2
    let s₁ := (play littleEndianPlatform device8897.environment [] s
      [.externalMethod 6 (writeArguments 0 0xC44 5 1)]).2
    let run := (Probe.main readArgv).exec
      (respond littleEndianPlatform device8897.environment [] s₁) []
    run.2 = 0 ∧ (∃ read transport, shown Probe.printed run.1 =
      reportLines s.controller read transport) ∧
      .registerRead 0 0x44 0 1 (some 0x45) ∈ shown Probe.printed run.1 ∧
      .field 5 0 5 ∈ shown Probe.printed run.1 := by
  intro s s₁ run
  have hother : Shared littleEndianPlatform s none s₁ :=
    Shared.other (Step.externalMethod (Program.runs_exec device8897.environment []
      (externalMethod littleEndianPlatform s.controller 6 (writeArguments 0 0xC44 5 1))))
  have hagainst : Against littleEndianPlatform run.1 s₁ _ _ :=
    against_exec [] s₁ (Probe.main readArgv)
  have hserved := hagainst.1
  have hopens : ∀ e ∈ run.1, Probe.Opens e := opens_of_answered (Program.answered_exec _ [] _)
  obtain ⟨hcode, read, c₁, -, -, hlines⟩ := probe_reports
    (run_play [] boot [.start])
    (show Probe.parseOptions readArgv = .accepted ⟨true, 0, 0x44⟩ by decide +kernel)
    (Program.runs_exec _ [] _) hopens
    (Path.cons hother (shared_serveAll [] s₁ _))
    (by rw [List.reduceOption_cons_of_none, reduceOption_some]; exact hserved)
  refine ⟨hcode, ⟨read, _, hlines⟩, ?_, ?_⟩
  · decide +kernel
  · decide +kernel

end MarvellW8897
