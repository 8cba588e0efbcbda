import MarvellW8897.Effect.Simulation
import MarvellW8897.Memory.Registers
import MarvellW8897.Properties.RegisterFile
import MarvellW8897.Properties.Requests

/-!
# What the clients see of the registers

Over plain memory, the calls of any number of user clients, in any order, are exchanges with a file
of registers. The record selectors and the calls that are refused for their counts do not show.

* `Plain` — the loads of a trace find what memory holds.
* `simulation_registers` — each call is an exchange with the file, or leaves it alone.
* `clients_see_registers` — the calls between two lifecycle calls are a run of the file.
-/

namespace MarvellW8897

open Effect

variable {platform : Platform} {host : ByteOrder} {rest : Environment} {m : DeviceMemory}
  {t u : List DeviceEvent} {s s' : System} {calls calls₀ : List CallRecord} {r : CallRecord}
  {c c' : Controller} {selector : UInt32} {args : ExternalMethodArguments} {reply : Reply}

/-! ## Traces over plain memory -/

/-- Every load of `t` finds the word that is in memory by then; the memory is `m` before `t`. -/
def Plain (host : ByteOrder) : DeviceMemory → List DeviceEvent → Prop
  | _, [] => True
  | m, e :: t => (∀ reg offset raw, e = ⟨.load reg offset, raw⟩ →
      raw = Memory.load host.encoding m (registerAddress reg offset)) ∧
    Plain host (storeEvent host m e) t

theorem plain_append : Plain host m (t ++ u) ↔
    Plain host m t ∧ Plain host (memoryAfter host m t) u := by
  induction t generalizing m with
  | nil => simp [Plain, memoryAfter]
  | cons e t ih => simp only [List.cons_append, Plain, ih, and_assoc]; rfl

/-- Against the environment of plain memory, every trace is plain. -/
theorem plain_of_answered {past : List DeviceEvent}
    (h : Effect.Answered (plainMemory host m rest) past t) :
    Plain host (memoryAfter host m past) t := by
  induction t generalizing past with
  | nil => trivial
  | cons e t ih =>
    obtain ⟨he, ht⟩ := h
    refine ⟨?_, ?_⟩
    · rintro reg offset raw rfl
      exact he
    · have hplain := ih ht
      rwa [memoryAfter, List.foldl_append] at hplain

/-- Requests that are neither loads nor stores say nothing about memory, and leave it alone. -/
theorem memoryAfter_of_only {kinds : List OpKind} (h : Only kinds t)
    (hk : .mmio ∉ kinds := by decide) : memoryAfter host m t = m := by
  induction t with
  | nil => rfl
  | cons e t ih =>
    have hne := h.kind_ne List.mem_cons_self hk
    have he : storeEvent host m e = m := by
      obtain ⟨op, v⟩ := e
      cases op <;> first | rfl | exact absurd rfl hne
    change memoryAfter host (storeEvent host m e) t = m
    rw [he]
    exact ih (fun d hd => h d (List.mem_cons_of_mem e hd))

/-! ## The driver with the device's memory -/

/-- A reached state of the driver, and what the device's memory holds. -/
structure Machine where
  system : System
  memory : DeviceMemory

/-- A call of the driver over plain memory. -/
def Machine.Step (platform : Platform) (x : Machine) (r : CallRecord) (y : Machine) : Prop :=
  MarvellW8897.Step platform x.system r y.system ∧ Plain platform.host x.memory r.trace ∧
    y.memory = memoryAfter platform.host x.memory r.trace

theorem machine_path (h : Run platform s calls s')
    (hplain : Plain platform.host m (traceOf calls)) :
    Path (Machine.Step platform) ⟨s, m⟩ calls
      ⟨s', memoryAfter platform.host m (traceOf calls)⟩ := by
  induction h with
  | nil => exact Path.nil
  | snoc _ hs ih =>
    rw [traceOf_append, traceOf_singleton, plain_append] at hplain
    refine Path.snoc (ih hplain.1) ⟨hs, hplain.2, ?_⟩
    rw [traceOf_append, traceOf_singleton]
    exact List.foldl_append

/-- The registers that the BAR table grants, with what memory holds for each. -/
def registersOf (host : ByteOrder) (rest : Environment) (state : PciBarState) (m : DeviceMemory) :
    Registers.File (UInt32 × UInt32) UInt32 :=
  fun register => readRegister host rest state register.1 register.2 m

/-- The request for a register that a call makes, if its counts are those of selector 2, 3 or 6. -/
def registerRequest (selector : UInt32) (args : ExternalMethodArguments) :
    Option (Registers.Request (UInt32 × UInt32) UInt32) :=
  if selector = 2 ∧ (scalarCounts 2 1).Match args then some (.read (args.bar, args.offset))
  else if selector = 3 ∧ (scalarCounts 3 0).Match args then
    some (.write (args.bar, args.offset) args.value)
  else if selector = 6 ∧ (scalarCounts 3 1).Match args then
    some (.writeRead (args.bar, args.offset) args.value)
  else none

/-- What a reply says to a request for a register. -/
def registerAnswer (reply : Reply) : Registers.Answer UInt32 :=
  if reply.ret = kIOReturnSuccess then
    match reply.scalarOutput with
    | [] => .done
    | v :: _ => .value v.toUInt32
  else .refused

/-- The exchange that a call shows to someone who watches the registers. -/
def exchangeOf (r : CallRecord) :
    Option (Registers.Request (UInt32 × UInt32) UInt32 × Registers.Answer UInt32) :=
  match r.call, r.outcome with
  | .externalMethod selector args, .returned reply =>
    (registerRequest selector args).map fun request => (request, registerAnswer reply)
  | _, _ => none

/-! ## One call -/

section Call

variable {state : PciBarState} {b o v : UInt32} {w : Window MmioPtr}

theorem registersOf_of_access (hw : PciBars.Access state b o w) :
    registersOf host rest state m (b, o) =
      some (Memory.load Memory.littleEndian m (registerAddress w.base o)) :=
  readRegister_of_access hw

theorem registersOf_of_rejected (hn : ¬ ∃ w, PciBars.Access state b o w) :
    registersOf host rest state m (b, o) = none :=
  readRegister_of_rejected hn

/-- A granted store sets the register. -/
theorem registersOf_store (hc : PciBars.Consistent state)
    (hdisjoint : PciBars.DisjointResources state) (hw : PciBars.Access state b o w) :
    registersOf host rest state
        (Memory.store Memory.littleEndian m (registerAddress w.base o) v) =
      (registersOf host rest state m).set (b, o) v := by
  funext ⟨b', o'⟩
  have hread : registersOf host rest state (writeRegister host rest state b o v m).2 (b', o') = _ :=
    (readRegister_writeRegister hc hdisjoint hw).2
  rw [writeRegister_of_access hw] at hread
  refine hread.trans ?_
  have hsome : (registersOf host rest state m (b, o)).isSome := by
    rw [registersOf_of_access hw]
    rfl
  by_cases hsame : b' = b ∧ o' = o
  · obtain ⟨rfl, rfl⟩ := hsame
    rw [if_pos ⟨rfl, rfl⟩, Registers.File.set_same hsome]
  · rw [if_neg hsame, Registers.File.set_of_ne (fun he => hsame (Prod.mk.inj he))]
    rfl

/-- What the store of a converted value leaves in memory. -/
theorem storeEvent_store (reg : MmioPtr) (offset value : UInt32) :
    storeEvent host m ⟨.store reg offset (osSwapHostToLittleInt32 host value), ()⟩ =
      Memory.store Memory.littleEndian m (registerAddress reg offset) value := by
  funext x
  show Memory.store host.encoding m _ _ x = Memory.store Memory.littleEndian m _ _ x
  unfold Memory.store
  rw [encoding_hostToLittle]

/-- A plain load gives the little-endian word. -/
theorem littleToHost_load {reg : MmioPtr} {offset raw : UInt32}
    (h : raw = Memory.load host.encoding m (registerAddress reg offset)) :
    osSwapLittleToHostInt32 host raw =
      Memory.load Memory.littleEndian m (registerAddress reg offset) := by
  rw [h]
  exact littleToHost_encoding host _

theorem registerAnswer_badArgument :
    registerAnswer { ret := kIOReturnBadArgument } = .refused := if_neg badArgument_ne_success

theorem registerAnswer_value (v : UInt32) :
    registerAnswer (.success [v.toUInt64]) = .value v := by
  simp [registerAnswer, Reply.success]

/-- A read is answered by the file. -/
theorem step_read (h : Runs (sReadReg32FromBar host c args) t (reply, c'))
    (hplain : Plain host m t) :
    Registers.Step (registersOf host rest c.fPciBarState m)
      (.read (args.bar, args.offset), registerAnswer reply)
      (registersOf host rest c'.fPciBarState (memoryAfter host m t)) := by
  unfold Registers.Step Registers.File.respond
  rcases runs_sReadReg32FromBar.mp h with ⟨w, raw, hw, rfl, he⟩ | ⟨hn, rfl, he⟩
  · obtain ⟨rfl, rfl⟩ := Prod.mk.inj he
    dsimp only
    rw [registersOf_of_access hw, littleToHost_load (hplain.1 _ _ _ rfl), registerAnswer_value]
    rfl
  · obtain ⟨rfl, rfl⟩ := Prod.mk.inj he
    dsimp only
    rw [registersOf_of_rejected hn, registerAnswer_badArgument]
    rfl

theorem step_write (hc : PciBars.Consistent c.fPciBarState)
    (hdisjoint : PciBars.DisjointResources c.fPciBarState)
    (h : Runs (sWriteReg32ToBar host c args) t (reply, c')) :
    Registers.Step (registersOf host rest c.fPciBarState m)
      (.write (args.bar, args.offset) args.value, registerAnswer reply)
      (registersOf host rest c'.fPciBarState (memoryAfter host m t)) := by
  unfold Registers.Step Registers.File.respond
  rcases runs_sWriteReg32ToBar.mp h with ⟨w, hw, rfl, he⟩ | ⟨hn, rfl, he⟩
  · obtain ⟨rfl, rfl⟩ := Prod.mk.inj he
    have hmem : memoryAfter host m [⟨.store w.base args.offset
        (osSwapHostToLittleInt32 host args.value), ()⟩] = _ := storeEvent_store _ _ _
    dsimp only
    rw [hmem, registersOf_store hc hdisjoint hw, registersOf_of_access hw]
    rfl
  · obtain ⟨rfl, rfl⟩ := Prod.mk.inj he
    dsimp only
    rw [registersOf_of_rejected hn, registerAnswer_badArgument]
    rfl

/-- Over plain memory, a write with flush reads back what it wrote. -/
theorem step_writeRead (hc : PciBars.Consistent c.fPciBarState)
    (hdisjoint : PciBars.DisjointResources c.fPciBarState)
    (h : Runs (sWriteReg32ToBarWithFlush host c args) t (reply, c')) (hplain : Plain host m t) :
    Registers.Step (registersOf host rest c.fPciBarState m)
      (.writeRead (args.bar, args.offset) args.value, registerAnswer reply)
      (registersOf host rest c'.fPciBarState (memoryAfter host m t)) := by
  unfold Registers.Step Registers.File.respond
  rcases runs_sWriteReg32ToBarWithFlush.mp h with ⟨w, raw, hw, rfl, he⟩ | ⟨hn, rfl, he⟩
  · obtain ⟨rfl, rfl⟩ := Prod.mk.inj he
    have hmem : memoryAfter host m [⟨.store w.base args.offset
        (osSwapHostToLittleInt32 host args.value), ()⟩, ⟨.load w.base args.offset, raw⟩] =
        Memory.store Memory.littleEndian m (registerAddress w.base args.offset) args.value :=
      storeEvent_store _ _ _
    have hraw := hplain.2.1 _ _ _ rfl
    rw [storeEvent_store] at hraw
    dsimp only
    rw [hmem, registersOf_store hc hdisjoint hw, registersOf_of_access hw,
      littleToHost_load hraw, Memory.load_store, registerAnswer_value]
    rfl
  · obtain ⟨rfl, rfl⟩ := Prod.mk.inj he
    dsimp only
    rw [registersOf_of_rejected hn, registerAnswer_badArgument]
    rfl

/-- A call that asks for no register makes no load and no store. -/
theorem only_of_registerRequest (hnone : registerRequest selector args = none)
    (h : Runs (externalMethod platform c selector args) t (reply, c')) : Only [.other] t := by
  unfold registerRequest at hnone
  rcases runs_externalMethod h with ⟨i, ⟨hi, hm⟩, -⟩ | ⟨rfl, -⟩
  · have hsel : selector = UInt32.ofNat i.val := by
      rw [← hi, UInt32.ofNat_toNat]
    have hrest : selector ∉ [2, 3, 6] := by
      rintro hmem
      simp only [List.mem_cons, List.not_mem_nil, or_false] at hmem
      have hne : ∀ j : Fin kMarvellMethodCount, selector = UInt32.ofNat j.val → i = j := by
        intro j hj
        refine Fin.ext ?_
        rw [← hi, hj, UInt32.toNat_ofNat_of_lt' (lt_trans j.isLt (by decide))]
      rcases hmem with rfl | rfl | rfl
      · rw [hne 2 rfl] at hm
        simp [show (scalarCounts 2 1).Match args from hm] at hnone
      · rw [hne 3 rfl] at hm
        simp [show (scalarCounts 3 0).Match args from hm] at hnone
      · rw [hne 6 rfl] at hm
        simp [show (scalarCounts 3 1).Match args from hm] at hnone
    cases runs_call h with
    | failed _ => simp [Only]
    | reported _ ht =>
      intro e he
      obtain ⟨index, hindex⟩ := ht e he
      rw [hindex]
      simp [DeviceOp.kind]
    | read _ hselector _ => simp [hselector] at hrest
    | written hselector _ => simp [hselector] at hrest
    | flushed _ hselector _ => simp [hselector] at hrest
  · simp [Only]

end Call

/-! ## Runs of calls -/

/-- A call of a user client. -/
def CallRecord.isExternal (r : CallRecord) : Prop :=
  ∃ selector args, r.call = .externalMethod selector args

/-- The file shows what the driver grants and memory holds. -/
structure Shows (host : ByteOrder) (rest : Environment) (x : Machine)
    (file : Registers.File (UInt32 × UInt32) UInt32) : Prop where
  consistent : PciBars.Consistent x.system.controller.fPciBarState
  disjoint : PciBars.DisjointResources x.system.controller.fPciBarState
  file_eq : file = registersOf host rest x.system.controller.fPciBarState x.memory

/-- Each call of a client is an exchange with the file, or leaves it alone. -/
theorem simulation_registers :
    Simulation (fun x r y => Machine.Step platform x r y ∧ r.isExternal)
      Registers.Step exchangeOf (Shows platform.host rest) where
  silent := by
    rintro x file r y ⟨hc, hdisjoint, rfl⟩ ⟨⟨hstep, -, hmem⟩, selector, args, hcall⟩ hshown
    obtain ⟨system, memory⟩ := y
    cases hstep with
    | start _ _ => simp at hcall
    | stop _ => simp at hcall
    | externalMethod hr =>
      obtain ⟨rfl, rfl⟩ := Call.externalMethod.inj hcall.symm
      have hbars := (runs_call hr).frame.1.fPciBarState
      have hnone : registerRequest selector args = none := by
        simpa only [exchangeOf, Option.map_eq_none_iff] using hshown
      have hsame : memoryAfter platform.host x.memory _ = x.memory :=
        memoryAfter_of_only (only_of_registerRequest hnone hr)
      refine ⟨by rw [hbars]; exact hc, by rw [hbars]; exact hdisjoint, ?_⟩
      rw [hmem, hbars, hsame]
  shown := by
    rintro x file r y exchange ⟨hc, hdisjoint, rfl⟩ ⟨⟨hstep, hplain, hmem⟩, selector, args, hcall⟩
      hshown
    obtain ⟨system, memory⟩ := y
    cases hstep with
    | start _ _ => simp at hcall
    | stop _ => simp at hcall
    | externalMethod hr =>
      obtain ⟨rfl, rfl⟩ := Call.externalMethod.inj hcall.symm
      have hbars := (runs_call hr).frame.1.fPciBarState
      obtain ⟨request, hrequest, rfl⟩ := Option.map_eq_some_iff.mp hshown
      refine ⟨_, ?_, by rw [hbars]; exact hc, by rw [hbars]; exact hdisjoint, rfl⟩
      rw [hmem]
      -- one case for each selector that names a register
      unfold registerRequest at hrequest
      split at hrequest
      · next h =>
        obtain rfl := Option.some.inj hrequest
        rw [externalMethod_of_admitted (i := 2) ⟨by rw [h.1]; rfl, h.2⟩] at hr
        exact step_read hr hplain
      · split at hrequest
        · next h =>
          obtain rfl := Option.some.inj hrequest
          rw [externalMethod_of_admitted (i := 3) ⟨by rw [h.1]; rfl, h.2⟩] at hr
          exact step_write hc hdisjoint hr
        · split at hrequest
          · next h =>
            obtain rfl := Option.some.inj hrequest
            rw [externalMethod_of_admitted (i := 6) ⟨by rw [h.1]; rfl, h.2⟩] at hr
            exact step_writeRead hc hdisjoint hr hplain
          · simp at hrequest

/--
From any reachable state, the calls of any number of clients, in any order, are a run of one file of
registers, as long as the device's memory is plain and its resources are disjoint. So a read is
answered with what was last written to its register, or with what memory held there before.
-/
theorem clients_see_registers (h₀ : Run platform boot calls₀ s)
    (hdisjoint : PciBars.DisjointResources s.controller.fPciBarState)
    (h : Run platform s calls s') (hcalls : ∀ r ∈ calls, r.isExternal)
    (hplain : Plain platform.host m (traceOf calls)) (rest : Environment) :
    let file := registersOf platform.host rest s.controller.fPciBarState m
    Path Registers.Step file (calls.filterMap exchangeOf)
        (registersOf platform.host rest s'.controller.fPciBarState
          (memoryAfter platform.host m (traceOf calls))) ∧
      ∀ before r after register answer, calls = before ++ r :: after →
        exchangeOf r = some (.read register, answer) →
        answer = Registers.answerOf
          ((lastCommand (Registers.written register) (before.filterMap exchangeOf)).or
            (file register)) := by
  intro file
  have hshows : Shows platform.host rest ⟨s, m⟩ file := ⟨(consistent_of_run h₀).1, hdisjoint, rfl⟩
  have hpath : Path (fun x r y => Machine.Step platform x r y ∧ r.isExternal) ⟨s, m⟩ calls _ :=
    (machine_path h hplain).mono hcalls
  obtain ⟨file', hrun, hend⟩ := simulation_registers.path hshows hpath
  rw [hend.file_eq] at hrun
  refine ⟨hrun, ?_⟩
  rintro before r after register answer rfl hr
  rw [List.filterMap_append, List.filterMap_cons, hr] at hrun
  exact Registers.answer_path hrun

/-- A write to a register of the 88W8897, a refused one, and a read. -/
theorem clients_see_registers_8897 :
    let s := (play littleEndianPlatform device8897.environment [] boot [.start]).2
    let file := registersOf .little device8897.environment s.controller.fPciBarState fun _ => 0
    ∃ file', Path Registers.Step file [(.write (2, 0x44) 7, .done), (.write (1, 0x44) 8, .refused),
      (.read (2, 0x44), .value 7)] file' := by
  intro s file
  have h₀ : Run littleEndianPlatform boot _ s := run_play [] boot [.start]
  have hdisjoint : PciBars.DisjointResources s.controller.fPciBarState := by
    unfold PciBars.DisjointResources
    decide +kernel
  let calls : List Call := [.externalMethod 3 (writeArguments 2 0x44 7 0),
    .externalMethod 3 (writeArguments 1 0x44 8 0), .externalMethod 2 (readArguments 2 0x44)]
  let env := plainMemory .little (fun _ => 0) device8897.environment
  have hplain : Plain .little (fun _ => 0) (traceOf (play littleEndianPlatform env [] s calls).1) :=
    plain_of_answered (answered_play [] s calls)
  have hcalls : ∀ r ∈ (play littleEndianPlatform env [] s calls).1, r.isExternal := by
    intro r hmem
    have hcall := call_mem_of_play hmem
    simp only [calls, List.mem_cons, List.not_mem_nil, or_false] at hcall
    rcases hcall with hcall | hcall | hcall <;> exact ⟨_, _, hcall⟩
  have hsees := (clients_see_registers h₀ hdisjoint (run_play [] s calls) hcalls hplain
    device8897.environment).1
  have hshown : (play littleEndianPlatform env [] s calls).1.filterMap exchangeOf =
      [(.write (2, 0x44) 7, .done), (.write (1, 0x44) 8, .refused),
        (.read (2, 0x44), .value 7)] := by decide +kernel
  rw [hshown] at hsees
  exact ⟨_, hsees⟩

end MarvellW8897
