import MarvellW8897.Effect.Talks
import MarvellW8897.Properties.Probe
import MarvellW8897.Spec.Dialogue

/-!
# The conversation of the probe

Which calls `marvell_probe` makes, and how they follow from the replies, with any kernel at all: one
that reports its ABI, an older one that does not, or one that answers nonsense.

* `barPlan` — the queries for one slot, tried until one of them succeeds.
* `Conversation` — the conversations of an accepted command line.
* `main_talks_iff` — they are exactly what `main` can say.
* `Conversation.length_le` — none of them is longer than 30 calls.
-/

namespace MarvellW8897

namespace Probe

open Effect

variable {xs : List Exchange} {abi : AbiInfo} {bar : UInt32} {options : ProbeOptions}

/-! ## Plans -/

def pciCall : ConnectCall where
  selector := kMarvellMethodGetPciInfo
  input := []
  capacity := 10
  outCount := 10

/-- A query for the record of a slot. -/
def barCall (selector bar want : UInt32) : ConnectCall where
  selector
  input := [bar.toUInt64]
  capacity := 11
  outCount := want

/-- The queries for one slot: those that the ABI advertises, or the known ones, newest first. -/
def barPlan (abi : AbiInfo) (bar : UInt32) : List ConnectCall :=
  if abi.haveAbiInfo then
    (if selectorSupported abi.selectorBitmap kMarvellMethodGetBarInfoV2 then
      [barCall kMarvellMethodGetBarInfoV2 bar abi.v2BarCount] else []) ++
    (if selectorSupported abi.selectorBitmap kMarvellMethodGetBarInfoLegacy then
      [barCall kMarvellMethodGetBarInfoLegacy bar abi.legacyBarCount] else [])
  else
    [barCall kMarvellMethodGetBarInfoV2 bar 11, barCall kMarvellMethodGetBarInfoLegacy bar 11,
      barCall kMarvellMethodGetBarInfoLegacy bar 10, barCall kMarvellMethodGetBarInfoLegacy bar 8]

def Exchange.Succeeds (x : Exchange) : Prop := x.reply.ret = kIOReturnSuccess

/-- The queries for one slot and their replies; `ok` says whether one of them succeeded. -/
def BarTalk (abi : AbiInfo) (bar : UInt32) (xs : List Exchange) (ok : Bool) : Prop :=
  FirstSuccess Exchange.call Exchange.Succeeds (barPlan abi bar) xs ok

/-! ## Programs that make no call -/

theorem exists_runs {α : Type} (p : ProbeM α) : ∃ t a, Runs p t a :=
  ⟨_, _, Program.runs_exec (respond littleEndianPlatform device8897.environment [] boot) [] p⟩

/-- A program that makes no call is silent, and goes on. -/
theorem talks_silent {p : ProbeM Unit} (h : Calls [] p) : Talks exchange p xs () ↔ xs = [] := by
  constructor
  · rintro ⟨t, hr, rfl⟩
    exact h.exchanges_nil hr
  · rintro rfl
    obtain ⟨t, ⟨⟩, hr⟩ := exists_runs p
    exact ⟨t, hr, h.exchanges_nil hr⟩

theorem talks_silent_bind {β : Type} {p : ProbeM Unit} {g : Unit → ProbeM β} {b : β}
    (h : Calls [] p) : Talks exchange (p >>= g) xs b ↔ Talks exchange (g ()) xs b := by
  rw [talks_bind]
  constructor
  · rintro ⟨ys, ⟨⟩, zs, rfl, hp, hg⟩
    rw [(talks_silent h).mp hp]
    exact hg
  · intro hg
    exact ⟨[], (), xs, rfl, (talks_silent h).mpr rfl, hg⟩

/-- A call, before the rest of a program. -/
theorem talks_call {β : Type} {n : Nat} {selector outCount : UInt32} {input : List UInt64}
    {out : Fin n → UInt64} {g : IOReturn × UInt32 × (Fin n → UInt64) → ProbeM β} {b : β} :
    Talks exchange (callScalarMethod selector input out outCount >>= g) xs b ↔
      ∃ (reply : ConnectReply) (rest : List Exchange),
        xs = ⟨{ selector, input, capacity := n, outCount }, reply⟩ :: rest ∧
        Talks exchange (g (reply.ret, reply.outCount, fill out reply.out)) rest b := by
  rw [talks_bind]
  constructor
  · rintro ⟨ys, r, zs, rfl, hcall, hg⟩
    obtain ⟨ys₁, reply, ys₂, rfl, hask, hend⟩ := talks_bind.mp hcall
    obtain ⟨rfl, rfl⟩ := talks_pure.mp hend
    rw [talks_ask] at hask
    obtain rfl := hask
    exact ⟨reply, zs, rfl, hg⟩
  · rintro ⟨reply, rest, rfl, hg⟩
    refine ⟨[⟨{ selector, input, capacity := n, outCount }, reply⟩], _, rest, rfl, ?_, hg⟩
    refine talks_bind.mpr ⟨_, reply, [], (List.append_nil _).symm, ?_, talks_pure.mpr ⟨rfl, rfl⟩⟩
    exact talks_ask.mpr rfl

/-! ## The queries for one slot -/

/-- The queries of `plan`, one after another, until one succeeds. -/
abbrev Queries {α : Type} (plan : List ConnectCall) (p : ProbeM (Bool × α)) : Prop :=
  Tries exchange Exchange.call Exchange.Succeeds plan p

/-- The snapshot after a query that succeeded. -/
def snapshotAfter (snapshot : Option BarInfoSnapshot) (reply : ConnectReply) :
    Option BarInfoSnapshot :=
  if reply.outCount ≥ UInt32.ofNat kBarInfoV2FieldCount then
    snapshot.map fun _ => { valid := true, fields := fill (fun _ => 0) reply.out }
  else snapshot

theorem queries_tryGetBarInfo {selector want : UInt32} {snapshot : Option BarInfoSnapshot} :
    Queries [barCall selector bar want] (tryGetBarInfo selector bar want snapshot) := by
  intro xs ok
  rw [firstSuccess_cons]
  unfold tryGetBarInfo
  simp only [talks_call, talks_silent_bind (calls_print _), firstSuccess_nil]
  constructor
  · rintro ⟨after, reply, rest, rfl, h⟩
    refine ⟨⟨barCall selector bar want, reply⟩, rfl, ?_⟩
    split at h
    · next hret =>
      obtain ⟨rfl, he⟩ := talks_pure.mp h
      exact Or.inr ⟨hret, [], rfl, rfl, (Prod.mk.inj he).1⟩
    · next hret =>
      rw [talks_silent_bind (calls_printFields _ _ _)] at h
      obtain ⟨rfl, he⟩ := talks_pure.mp h
      exact Or.inl ⟨not_not.mp hret, rfl, (Prod.mk.inj he).1⟩
  · rintro ⟨⟨call, reply⟩, rfl, ⟨hret, rfl, rfl⟩ | ⟨hret, rest, rfl, rfl, rfl⟩⟩
    · refine ⟨snapshotAfter snapshot reply, reply, [], rfl, ?_⟩
      rw [if_neg (not_not.mpr (show reply.ret = _ from hret)),
        talks_silent_bind (calls_printFields _ _ _)]
      exact talks_pure.mpr ⟨rfl, rfl⟩
    · refine ⟨snapshot, reply, [], rfl, ?_⟩
      rw [if_pos (show reply.ret ≠ _ from hret)]
      exact talks_pure.mpr ⟨rfl, rfl⟩

/-- The loop over the lengths; its result comes with nothing else. -/
theorem queries_tryWants {α : Type} (a : α) (wants : List UInt32) :
    Queries (wants.map (barCall kMarvellMethodGetBarInfoLegacy bar)) (do
      let ok ← tryWants bar wants
      return (ok, a)) := by
  induction wants with
  | nil => exact tries_pure a
  | cons want wants ih =>
    have hassoc : (do
        let ok ← tryWants bar (want :: wants)
        return (ok, a) : ProbeM (Bool × α)) = (do
        let r ← tryGetBarInfo kMarvellMethodGetBarInfoLegacy bar want none
        if r.1 then return (true, a)
        else
          let ok ← tryWants bar wants
          return (ok, a)) := by
      rw [show tryWants bar (want :: wants) =
        tryGetBarInfo kMarvellMethodGetBarInfoLegacy bar want none >>= fun r =>
          if r.1 then return true else tryWants bar wants from rfl, Program.bind_assoc]
      refine congrArg _ (funext ?_)
      rintro ⟨ok, _⟩
      cases ok <;> rfl
    rw [hassoc]
    exact queries_tryGetBarInfo.orElse (fun _ => ⟨a, rfl⟩) (fun _ => ih)

theorem queries_queryAdvertised {snapshot : BarInfoSnapshot} (habi : abi.haveAbiInfo = true) :
    Queries (barPlan abi bar) (queryAdvertised abi bar snapshot) := by
  have hv2 : Queries (if selectorSupported abi.selectorBitmap kMarvellMethodGetBarInfoV2 then
      [barCall kMarvellMethodGetBarInfoV2 bar abi.v2BarCount] else [])
      (queryAdvertisedV2 abi bar snapshot) := by
    unfold queryAdvertisedV2
    split
    · exact queries_tryGetBarInfo
    · exact tries_pure _
  unfold barPlan queryAdvertised
  rw [if_pos habi]
  refine hv2.orElse (fun after => ⟨after, rfl⟩) fun after => ?_
  split
  · next hlegacy =>
    rw [hlegacy]
    exact queries_tryGetBarInfo.map (fun _ => rfl)
  · next hlegacy =>
    rw [Bool.not_eq_true] at hlegacy
    rw [hlegacy]
    exact tries_pure _

theorem queries_queryFallback {snapshot : BarInfoSnapshot} (habi : abi.haveAbiInfo = false) :
    Queries (barPlan abi bar) (queryFallback bar snapshot) := by
  unfold barPlan queryFallback
  rw [if_neg (by simp [habi])]
  exact queries_tryGetBarInfo.orElse (fun after => ⟨after, rfl⟩)
    (fun after => queries_tryWants after [11, 10, 8])

theorem queries_queryByAbi {snapshot : BarInfoSnapshot} :
    Queries (barPlan abi bar) (queryByAbi abi bar snapshot) := by
  unfold queryByAbi
  split
  · next habi => exact queries_queryAdvertised habi
  · next habi => exact queries_queryFallback (by simpa using habi)

/-! ## The parts of a conversation -/

/-- The explicit read of the options, with its reply, unless the ABI lacks the selector. -/
def ReadTalk (abi : AbiInfo) (options : ProbeOptions) (xs : List Exchange) : Prop :=
  if options.readBarReg = true ∧ (abi.haveAbiInfo = true →
      selectorSupported abi.selectorBitmap kMarvellMethodReadReg32FromBar = true) then
    ∃ reply, xs = [⟨readCall options.readBar options.readOffset, reply⟩]
  else xs = []

def bringupCall : ConnectCall where
  selector := kMarvellMethodGetBringupResult
  input := []
  capacity := kBringupResultCount
  outCount := UInt32.ofNat kBringupResultCount

/-- The bring-up record, if it is advertised. -/
def BringupTalk (abi : AbiInfo) (xs : List Exchange) : Prop :=
  if abi.haveAbiInfo && selectorSupported abi.selectorBitmap kMarvellMethodGetBringupResult then
    ∃ reply, xs = [⟨bringupCall, reply⟩]
  else xs = []

/-- A call for the transport state. -/
def transportCall (selector outCount : UInt32) : ConnectCall where
  selector
  input := []
  capacity := 8
  outCount

/-- The transport state; without an ABI record, an unsupported selector is followed by the old
one. -/
def TransportTalk (abi : AbiInfo) (xs : List Exchange) : Prop :=
  if abi.haveAbiInfo && !selectorSupported abi.selectorBitmap kMarvellMethodGetTransportState then
    xs = []
  else ∃ reply : ConnectReply,
    if !abi.haveAbiInfo ∧ reply.ret = kUnsupported then
      ∃ old, xs = [⟨transportCall kMarvellMethodGetTransportState abi.transportCount, reply⟩,
        ⟨transportCall kLegacyMethodGetTransportState 8, old⟩]
    else xs = [⟨transportCall kMarvellMethodGetTransportState abi.transportCount, reply⟩]

/-- The conversations of an accepted command line: each part is determined by the ABI reply. -/
inductive Conversation (options : ProbeOptions) : List Exchange → Prop where
  | mk {read bringup transport : List Exchange} {bars : List (List Exchange)}
      (pci abi : ConnectReply) (hread : ReadTalk abi.abiInfo options read)
      (hbars : List.Forall₂ (fun (b : Fin kMaxBars) xs =>
        ∃ ok, BarTalk abi.abiInfo (UInt32.ofNat b.val) xs ok) (List.finRange kMaxBars) bars)
      (hbringup : BringupTalk abi.abiInfo bringup)
      (htransport : TransportTalk abi.abiInfo transport) :
      Conversation options
        (⟨pciCall, pci⟩ :: ⟨abiCall, abi⟩ :: (read ++ (bars.flatten ++ (bringup ++ transport))))

/-- Whatever it returns, a program that makes no call is silent. -/
theorem says_silent {α : Type} {p : ProbeM α} (h : Calls [] p) : Says exchange p xs ↔ xs = [] := by
  constructor
  · rintro ⟨a, t, hr, rfl⟩
    exact h.exchanges_nil hr
  · rintro rfl
    obtain ⟨t, a, hr⟩ := exists_runs p
    exact ⟨a, t, hr, h.exchanges_nil hr⟩

theorem says_silent_bind {α : Type} {p : ProbeM Unit} {g : Unit → ProbeM α} (h : Calls [] p) :
    Says exchange (p >>= g) xs ↔ Says exchange (g ()) xs :=
  exists_congr fun _ => talks_silent_bind h

theorem says_bind_silent {α β : Type} {p : ProbeM α} {g : α → ProbeM β}
    (h : ∀ a, Calls [] (g a)) : Says exchange (p >>= g) xs ↔ Says exchange p xs := by
  rw [says_bind fun a zs => says_silent (h a)]
  constructor
  · rintro ⟨ys, zs, rfl, hp, rfl⟩
    rwa [List.append_nil]
  · intro hp
    exact ⟨xs, [], (List.append_nil xs).symm, hp, rfl⟩

/-- A call, and what follows from its reply. -/
theorem says_call_bind {β : Type} {n : Nat} {selector outCount : UInt32} {input : List UInt64}
    {out : Fin n → UInt64} {g : IOReturn × UInt32 × (Fin n → UInt64) → ProbeM β} :
    Says exchange (callScalarMethod selector input out outCount >>= g) xs ↔
      ∃ (reply : ConnectReply) (rest : List Exchange),
        xs = ⟨{ selector, input, capacity := n, outCount }, reply⟩ :: rest ∧
        Says exchange (g (reply.ret, reply.outCount, fill out reply.out)) rest := by
  constructor
  · rintro ⟨b, h⟩
    obtain ⟨reply, rest, rfl, hrest⟩ := talks_call.mp h
    exact ⟨reply, rest, rfl, b, hrest⟩
  · rintro ⟨reply, rest, rfl, b, hrest⟩
    exact ⟨b, talks_call.mpr ⟨reply, rest, rfl, hrest⟩⟩

/-- A call, and then none. -/
theorem says_call {β : Type} {n : Nat} {selector outCount : UInt32} {input : List UInt64}
    {out : Fin n → UInt64} {g : IOReturn × UInt32 × (Fin n → UInt64) → ProbeM β}
    (h : ∀ r, Calls [] (g r)) :
    Says exchange (callScalarMethod selector input out outCount >>= g) xs ↔
      ∃ reply, xs = [⟨{ selector, input, capacity := n, outCount }, reply⟩] := by
  rw [says_call_bind]
  refine exists_congr fun reply => ?_
  simp only [says_silent (h _)]
  constructor
  · rintro ⟨rest, rfl, rfl⟩
    rfl
  · rintro rfl
    exact ⟨[], rfl, rfl⟩

theorem says_getPciInfo : Says exchange getPciInfo xs ↔ ∃ reply, xs = [⟨pciCall, reply⟩] :=
  says_call fun _ => Uses.bind (calls_print _) fun _ =>
    Uses.ite (calls_printFields _ _ _) (uses_pure _)

/-- The locals about the ABI follow from the reply. -/
theorem talks_getDebugAbiInfo : Talks exchange getDebugAbiInfo xs abi ↔
    ∃ reply : ConnectReply, xs = [⟨abiCall, reply⟩] ∧ abi = reply.abiInfo := by
  constructor
  · rintro ⟨t, hr, rfl⟩
    exact runs_getDebugAbiInfo hr
  · rintro ⟨reply, rfl, rfl⟩
    have hsays : Says exchange getDebugAbiInfo [⟨abiCall, reply⟩] := by
      refine (says_call fun r => ?_).mpr ⟨reply, rfl⟩
      refine Uses.bind (calls_print _) fun _ => Uses.ite ?_ (Uses.ite ?_ (uses_pure _))
      · exact Uses.bind (calls_printFields _ _ _) fun _ => uses_pure _
      · exact Uses.bind (calls_print _) fun _ => uses_pure _
    obtain ⟨abi, t, hr, hx⟩ := hsays
    obtain ⟨reply', hx', rfl⟩ := runs_getDebugAbiInfo hr
    have he : [(⟨abiCall, reply'⟩ : Exchange)] = [⟨abiCall, reply⟩] := hx'.symm.trans hx
    obtain rfl : reply' = reply := by simpa using he
    exact ⟨t, hr, hx⟩

theorem says_explicitReadBarReg {bar offset : UInt32} :
    Says exchange (explicitReadBarReg bar offset) xs ↔
      ∃ reply, xs = [⟨readCall bar offset, reply⟩] := by
  unfold explicitReadBarReg
  rw [says_silent_bind (calls_print _)]
  exact says_call fun r => Uses.bind (calls_print _) fun _ => uses_pure _

theorem says_explicitRead : Says exchange (explicitRead abi options) xs ↔
    ReadTalk abi options xs := by
  unfold explicitRead ReadTalk
  by_cases hoption : options.readBarReg = true
  · rw [if_pos hoption]
    by_cases hlacks : (abi.haveAbiInfo &&
        !selectorSupported abi.selectorBitmap kMarvellMethodReadReg32FromBar) = true
    · rw [if_pos hlacks, if_neg]
      · exact says_silent (calls_print _)
      · rw [Bool.and_eq_true, Bool.not_eq_true'] at hlacks
        rintro ⟨-, hsupported⟩
        rw [hsupported hlacks.1] at hlacks
        simp at hlacks
    · rw [if_neg hlacks, if_pos]
      · rw [says_bind_silent fun ok => Uses.ite (calls_print _) (uses_pure _)]
        exact says_explicitReadBarReg
      · refine ⟨hoption, fun habi => ?_⟩
        rw [habi] at hlacks
        simpa using hlacks
  · rw [if_neg hoption, if_neg fun h => hoption h.1]
    exact says_silent (uses_pure _)

theorem says_queryBars : Says exchange (queryBars abi) xs ↔
    ∃ bars, xs = bars.flatten ∧ List.Forall₂ (fun (b : Fin kMaxBars) xs =>
      ∃ ok, BarTalk abi (UInt32.ofNat b.val) xs ok) (List.finRange kMaxBars) bars := by
  refine says_foldlM fun snapshots b zs => ?_
  unfold queryBar
  rw [says_bind_silent fun r => Uses.ite (Uses.bind (calls_print _) fun _ => uses_pure _)
    (uses_pure _)]
  constructor
  · rintro ⟨⟨ok, after⟩, h⟩
    exact ⟨ok, (queries_queryByAbi zs ok).mp ⟨after, h⟩⟩
  · rintro ⟨ok, h⟩
    obtain ⟨after, hafter⟩ := (queries_queryByAbi zs ok).mpr h
    exact ⟨(ok, after), hafter⟩

theorem says_getBringupResult : Says exchange (getBringupResult abi) xs ↔ BringupTalk abi xs := by
  unfold getBringupResult BringupTalk
  split
  · refine says_call fun r => Uses.bind (calls_print _) fun _ => ?_
    exact Uses.ite (Uses.forM fun _ => calls_print _) (Uses.ite (calls_print _) (uses_pure _))
  · exact says_silent (calls_print _)

theorem says_getTransportState : Says exchange (getTransportState abi) xs ↔
    TransportTalk abi xs := by
  unfold getTransportState TransportTalk
  split
  · exact says_silent (calls_print _)
  · rw [says_call_bind]
    refine exists_congr fun reply => ?_
    dsimp only
    split
    · simp only [says_call fun _ => calls_printTransportState]
      constructor
      · rintro ⟨rest, rfl, old, rfl⟩
        exact ⟨old, rfl⟩
      · rintro ⟨old, rfl⟩
        exact ⟨_, rfl, old, rfl⟩
    · simp only [says_silent calls_printTransportState]
      constructor
      · rintro ⟨rest, rfl, rfl⟩
        rfl
      · rintro rfl
        exact ⟨[], rfl, rfl⟩

/-! ## main -/

/-- What is said once the ABI is known. -/
theorem says_afterAbi : Says exchange (do
      explicitRead abi options
      let barSnapshots ← queryBars abi
      printBarSummary barSnapshots
      getBringupResult abi
      getTransportState abi : ProbeM Unit) xs ↔
    ∃ (read : List Exchange) (bars : List (List Exchange)) (bringup transport : List Exchange),
      xs = read ++ (bars.flatten ++ (bringup ++ transport)) ∧ ReadTalk abi options read ∧
      List.Forall₂ (fun (b : Fin kMaxBars) xs => ∃ ok, BarTalk abi (UInt32.ofNat b.val) xs ok)
        (List.finRange kMaxBars) bars ∧
      BringupTalk abi bringup ∧ TransportTalk abi transport := by
  rw [says_bind fun _ _ => says_bind fun snapshots _ =>
    (says_silent_bind (calls_printBarSummary snapshots)).trans
      (says_bind fun _ _ => says_getTransportState)]
  simp only [says_explicitRead, says_queryBars, says_getBringupResult]
  constructor
  · rintro ⟨read, _, rfl, hread, _, _, rfl, ⟨bars, rfl, hbars⟩, bringup, transport, rfl, hbringup,
      htransport⟩
    exact ⟨read, bars, bringup, transport, rfl, hread, hbars, hbringup, htransport⟩
  · rintro ⟨read, bars, bringup, transport, rfl, hread, hbars, hbringup, htransport⟩
    exact ⟨read, _, rfl, hread, _, _, rfl, ⟨bars, rfl, hbars⟩, bringup, transport, rfl, hbringup,
      htransport⟩

theorem says_diagnose : Says exchange (diagnose options) xs ↔ Conversation options xs := by
  constructor
  · rintro ⟨⟨⟩, h⟩
    obtain ⟨ys, ⟨⟩, zs, rfl, hpci, hrest⟩ := talks_bind.mp h
    obtain ⟨us, abi, vs, rfl, habi, hafter⟩ := talks_bind.mp hrest
    obtain ⟨pci, rfl⟩ := says_getPciInfo.mp ⟨(), hpci⟩
    obtain ⟨reply, rfl, rfl⟩ := talks_getDebugAbiInfo.mp habi
    obtain ⟨read, bars, bringup, transport, rfl, hread, hbars, hbringup, htransport⟩ :=
      says_afterAbi.mp ⟨(), hafter⟩
    exact Conversation.mk pci reply hread hbars hbringup htransport
  · rintro ⟨pci, reply, hread, hbars, hbringup, htransport⟩
    obtain ⟨⟨⟩, hpci⟩ := says_getPciInfo.mpr ⟨pci, rfl⟩
    have habi := talks_getDebugAbiInfo.mpr ⟨reply, rfl, rfl⟩
    obtain ⟨⟨⟩, hafter⟩ := says_afterAbi.mpr
      ⟨_, _, _, _, rfl, hread, hbars, hbringup, htransport⟩
    exact ⟨(), talks_bind.mpr ⟨_, (), _, rfl, hpci, talks_bind.mpr ⟨_, _, _, rfl, habi, hafter⟩⟩⟩

/-- The service is opened first; if that fails, nothing is said. -/
theorem talks_connect {code : UInt32} : Talks exchange (connect options) xs code ↔
    (xs = [] ∧ code = 1) ∨ (Conversation options xs ∧ code = 0) := by
  have hclose : Talks exchange (do
      diagnose options
      ask .serviceClose
      return 0) xs code ↔ Conversation options xs ∧ code = 0 := by
    rw [← says_diagnose, talks_bind]
    simp only [talks_ask_silent (show ∀ r, exchange ⟨.serviceClose, r⟩ = none from fun _ => rfl),
      talks_pure]
    constructor
    · rintro ⟨ys, ⟨⟩, zs, rfl, h, _, rfl, rfl⟩
      rw [List.append_nil]
      exact ⟨⟨(), h⟩, rfl⟩
    · rintro ⟨⟨⟨⟩, h⟩, rfl⟩
      exact ⟨xs, (), [], (List.append_nil xs).symm, h, (), rfl, rfl⟩
  have hfail : ∀ line, Talks exchange (do
      print line
      return 1) xs code ↔ xs = [] ∧ code = 1 :=
    fun line => (talks_silent_bind (calls_print line)).trans talks_pure
  unfold connect
  rw [talks_ask_silent fun _ => rfl]
  constructor
  · rintro ⟨service, h⟩
    split at h
    · exact Or.inl ((hfail _).mp h)
    · obtain ⟨kr, h⟩ := (talks_ask_silent fun _ => rfl).mp h
      obtain ⟨_, h⟩ := (talks_ask_silent fun _ => rfl).mp h
      split at h
      · exact Or.inl ((hfail _).mp h)
      · exact Or.inr (hclose.mp h)
  · rintro (h | h)
    · exact ⟨false, (hfail _).mpr h⟩
    · refine ⟨true, (talks_ask_silent fun _ => rfl).mpr ⟨kIOReturnSuccess, ?_⟩⟩
      exact (talks_ask_silent fun _ => rfl).mpr ⟨(), hclose.mpr h⟩

/--
With any kernel at all, what `main` can say on a command line, and the exit code: for an accepted
one, nothing (there is no service, or it does not open), or exactly one of the conversations.
-/
theorem main_talks_iff {argv : List CString} {code : UInt32} :
    Talks exchange (main argv) xs code ↔
      match parseOptions argv with
      | .accepted options => (xs = [] ∧ code = 1) ∨ (Conversation options xs ∧ code = 0)
      | .rejected _ => xs = [] ∧ code = 2
      | .help => xs = [] ∧ code = 0
      | .pastEnd => False := by
  unfold main
  cases hargv : parseOptions argv with
  | accepted options => exact talks_connect
  | rejected refused =>
    dsimp only
    rw [talks_silent_bind, talks_silent_bind (calls_print _)]
    · exact talks_pure
    · cases refused with
      | none => exact uses_pure _
      | some offset => exact calls_print _
  | help => exact (talks_silent_bind (calls_print _)).trans talks_pure
  | pastEnd => exact absurd hargv parseArguments_ne_pastEnd

/-! ## How long a conversation is -/

theorem barPlan_length_le : (barPlan abi bar).length ≤ 4 := by
  unfold barPlan
  split
  · split <;> split <;> simp
  · simp

theorem BarTalk.length_le {ok : Bool} (h : BarTalk abi bar xs ok) : xs.length ≤ 4 := by
  have hkeys := h.keys.length_le
  rw [List.length_map] at hkeys
  exact hkeys.trans barPlan_length_le

theorem length_flatten_le {l : List (Fin kMaxBars)} {bars : List (List Exchange)}
    (h : List.Forall₂ (fun b xs => ∃ ok, BarTalk abi (UInt32.ofNat b.val) xs ok) l bars) :
    bars.flatten.length ≤ 4 * l.length := by
  induction h with
  | nil => simp
  | @cons b xs l bars hb _ ih =>
    obtain ⟨ok, hb⟩ := hb
    have hxs := hb.length_le
    rw [List.flatten_cons, List.length_append, List.length_cons]
    omega

/-- No kernel can make the probe go on asking. -/
theorem Conversation.length_le (h : Conversation options xs) : xs.length ≤ 30 := by
  obtain ⟨pci, reply, hread, hbars, hbringup, htransport⟩ := h
  rename_i read bringup transport bars
  have hread' : read.length ≤ 1 := by
    unfold ReadTalk at hread
    split at hread
    · obtain ⟨reply, rfl⟩ := hread
      simp
    · simp [hread]
  have hbringup' : bringup.length ≤ 1 := by
    unfold BringupTalk at hbringup
    split at hbringup
    · obtain ⟨reply, rfl⟩ := hbringup
      simp
    · simp [hbringup]
  have htransport' : transport.length ≤ 2 := by
    unfold TransportTalk at htransport
    split at htransport
    · simp [htransport]
    · obtain ⟨reply, h⟩ := htransport
      split at h
      · obtain ⟨old, rfl⟩ := h
        simp
      · simp [h]
  have hbars' : bars.flatten.length ≤ 4 * 6 := length_flatten_le hbars
  simp only [List.length_cons, List.length_append]
  omega

end Probe

end MarvellW8897
