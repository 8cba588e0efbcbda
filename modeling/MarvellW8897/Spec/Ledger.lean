import MarvellW8897.Effect.Trace
import MarvellW8897.Kext.Device

/-!
# The ledger of a trace

What a trace of requests says about the things the kext borrows: references to the provider, the
open session on it, the memory maps, and the two enable bits. The driver keeps none of these
counts; they are read off the trace.
-/

namespace MarvellW8897

open Effect

/-! ## Maps -/

/-- The map that an event obtained. -/
def obtained : DeviceEvent → Option IOMemoryMap
  | ⟨.mapDeviceMemoryWithIndex _, map⟩ => map
  | _ => none

/-- The index that an event asked a map for. -/
def askedIndex (e : DeviceEvent) : Option UInt32 :=
  match e.op with
  | .mapDeviceMemoryWithIndex index => some index
  | _ => none

/-- The number of resources that an event was told. -/
def countGiven : DeviceEvent → Option UInt32
  | ⟨.getDeviceMemoryCount, count⟩ => some count
  | _ => none

/-- The handle that an event unmapped. -/
def unmapped (e : DeviceEvent) : Option Nat :=
  match e.op with
  | .unmap handle => some handle
  | _ => none

/-- The handle whose reference an event released. -/
def releasedMap (e : DeviceEvent) : Option Nat :=
  match e.op with
  | .releaseMap handle => some handle
  | _ => none

/-- The map was obtained in `t` and has not been unmapped since. -/
def Live (t : List DeviceEvent) (map : IOMemoryMap) : Prop :=
  Held (fun e => obtained e = some map) (fun e => unmapped e = some map.handle) t

/-- How often a reference to `handle` was obtained in `t`. -/
def obtainedCount (t : List DeviceEvent) (handle : Nat) : Nat :=
  t.countP (fun e => (obtained e).map IOMemoryMap.handle == some handle)

def unmappedCount (t : List DeviceEvent) (handle : Nat) : Nat :=
  t.countP (fun e => unmapped e == some handle)

def releasedCount (t : List DeviceEvent) (handle : Nat) : Nat :=
  t.countP (fun e => releasedMap e == some handle)

theorem countGiven_eq_some {e : DeviceEvent} {count : UInt32} :
    countGiven e = some count ↔ e = ⟨.getDeviceMemoryCount, count⟩ := by
  obtain ⟨op, r⟩ := e
  cases op <;> simp [countGiven]

theorem mem_of_countGiven {t : List DeviceEvent} {count : UInt32}
    (h : t.filterMap countGiven = [count]) :
    ⟨.getDeviceMemoryCount, count⟩ ∈ t := by
  obtain ⟨e, he, hcount⟩ := List.mem_filterMap.mp (h ▸ List.mem_singleton_self count)
  exact countGiven_eq_some.mp hcount ▸ he

theorem obtainedCount_append (t u : List DeviceEvent) (handle : Nat) :
    obtainedCount (t ++ u) handle = obtainedCount t handle + obtainedCount u handle :=
  List.countP_append

theorem unmappedCount_append (t u : List DeviceEvent) (handle : Nat) :
    unmappedCount (t ++ u) handle = unmappedCount t handle + unmappedCount u handle :=
  List.countP_append

theorem releasedCount_append (t u : List DeviceEvent) (handle : Nat) :
    releasedCount (t ++ u) handle = releasedCount t handle + releasedCount u handle :=
  List.countP_append

/-! ## The provider -/

def retainCount (t : List DeviceEvent) : Nat := t.countP (fun e => e.op == .retain)

def releaseCount (t : List DeviceEvent) : Nat := t.countP (fun e => e.op == .release)

/-- A call of `open` that succeeded. -/
def opened : DeviceEvent → Bool
  | ⟨.openProvider, ok⟩ => ok
  | _ => false

def openCount (t : List DeviceEvent) : Nat := t.countP opened

def closeCount (t : List DeviceEvent) : Nat := t.countP (fun e => e.op == .closeProvider)

/-- The setting of bus mastering that an event commands. -/
def busMasterSetting (e : DeviceEvent) : Option Bool :=
  match e.op with
  | .setBusMasterEnable enable => some enable
  | _ => none

/-- The setting of memory decoding that an event commands. -/
def memorySetting (e : DeviceEvent) : Option Bool :=
  match e.op with
  | .setMemoryEnable enable => some enable
  | _ => none

/-- Whether a request reads or changes the device's configuration, or maps its memory. -/
def DeviceOp.needsOpen : DeviceOp → Bool
  | .configRead8 _ | .configRead16 _ | .configRead32 _ => true
  | .setMemoryEnable _ | .setBusMasterEnable _ => true
  | .mapDeviceMemoryWithIndex _ => true
  | _ => false

/-- The session on the provider: from a successful `open` to the matching `close`. -/
def providerSession : Session DeviceEvent where
  opens := opened
  closes := fun e => e.op == .closeProvider
  guarded := fun e => e.op.needsOpen

/-! ## Kinds of requests -/

/-- What a request is about. -/
inductive OpKind where
  | service
  | provider
  | config
  | enable
  | map
  | drop
  | mmio
  | other
deriving DecidableEq

def DeviceOp.kind : DeviceOp → OpKind
  | .superStart | .superStop | .dynamicCast | .registerService => .service
  | .retain | .release | .openProvider | .closeProvider => .provider
  | .configRead8 _ | .configRead16 _ | .configRead32 _ => .config
  | .setMemoryEnable _ | .setBusMasterEnable _ => .enable
  | .mapDeviceMemoryWithIndex _ => .map
  | .unmap _ | .releaseMap _ => .drop
  | .load _ _ | .store _ _ _ => .mmio
  | .getDeviceMemoryCount | .delay _ | .readPastResources _ => .other

/-- Every request of `t` is of one of the given kinds. -/
def Only (kinds : List OpKind) (t : List DeviceEvent) : Prop := ∀ e ∈ t, e.op.kind ∈ kinds

theorem Only.append {kinds : List OpKind} {t u : List DeviceEvent} (h : Only kinds t)
    (h' : Only kinds u) : Only kinds (t ++ u) := by
  intro e he
  rcases List.mem_append.mp he with he | he
  · exact h e he
  · exact h' e he

theorem Only.mono {kinds kinds' : List OpKind} {t : List DeviceEvent} (h : Only kinds t)
    (hsub : kinds ⊆ kinds' := by decide) : Only kinds' t := fun e he => hsub (h e he)

/-! ## Requests that leave the ledger alone -/

section Quiet

variable {kinds : List OpKind} {t : List DeviceEvent} {e : DeviceEvent}

theorem obtained_eq_none (h : e.op.kind ≠ .map) : obtained e = none := by
  obtain ⟨op, r⟩ := e
  cases op <;> simp_all [obtained, DeviceOp.kind]

theorem askedIndex_eq_none (h : e.op.kind ≠ .map) : askedIndex e = none := by
  obtain ⟨op, r⟩ := e
  cases op <;> simp_all [askedIndex, DeviceOp.kind]

theorem countGiven_eq_none (h : e.op.kind ≠ .other) : countGiven e = none := by
  obtain ⟨op, r⟩ := e
  cases op <;> simp_all [countGiven, DeviceOp.kind]

theorem unmapped_eq_none (h : e.op.kind ≠ .drop) : unmapped e = none := by
  obtain ⟨op, r⟩ := e
  cases op <;> simp_all [unmapped, DeviceOp.kind]

theorem releasedMap_eq_none (h : e.op.kind ≠ .drop) : releasedMap e = none := by
  obtain ⟨op, r⟩ := e
  cases op <;> simp_all [releasedMap, DeviceOp.kind]

theorem isMmio_eq_false (h : e.op.kind ≠ .mmio) : e.op.isMmio = false := by
  obtain ⟨op, r⟩ := e
  cases op <;> simp_all [DeviceOp.isMmio, DeviceOp.kind]

theorem settings_eq_none (h : e.op.kind ≠ .enable) :
    busMasterSetting e = none ∧ memorySetting e = none := by
  obtain ⟨op, r⟩ := e
  cases op <;> simp_all [busMasterSetting, memorySetting, DeviceOp.kind]

/-- An event that is not about the provider counts as none of the four. -/
theorem provider_quiet (h : e.op.kind ≠ .provider) :
    (e.op == .retain) = false ∧ (e.op == .release) = false ∧ opened e = false ∧
      (e.op == .closeProvider) = false := by
  obtain ⟨op, r⟩ := e
  cases op <;> simp_all [opened, DeviceOp.kind]

theorem Only.kind_ne {k : OpKind} (h : Only kinds t) (he : e ∈ t)
    (hk : k ∉ kinds := by decide) : e.op.kind ≠ k := by
  rintro rfl
  exact hk (h e he)

theorem Only.obtainedCount_eq_zero (h : Only kinds t) {handle : Nat}
    (hk : .map ∉ kinds := by decide) : obtainedCount t handle = 0 := by
  rw [obtainedCount, List.countP_eq_zero]
  intro e he
  simp [obtained_eq_none (h.kind_ne he hk)]

theorem Only.askedIndex_eq_nil (h : Only kinds t) (hk : .map ∉ kinds := by decide) :
    t.filterMap askedIndex = [] :=
  List.filterMap_eq_nil_iff.mpr fun _ he => askedIndex_eq_none (h.kind_ne he hk)

theorem Only.countGiven_eq_nil (h : Only kinds t) (hk : .other ∉ kinds := by decide) :
    t.filterMap countGiven = [] :=
  List.filterMap_eq_nil_iff.mpr fun _ he => countGiven_eq_none (h.kind_ne he hk)

theorem Only.unmappedCount_eq_zero (h : Only kinds t) {handle : Nat}
    (hk : .drop ∉ kinds := by decide) : unmappedCount t handle = 0 := by
  rw [unmappedCount, List.countP_eq_zero]
  intro e he
  simp [unmapped_eq_none (h.kind_ne he hk)]

theorem Only.releasedCount_eq_zero (h : Only kinds t) {handle : Nat}
    (hk : .drop ∉ kinds := by decide) : releasedCount t handle = 0 := by
  rw [releasedCount, List.countP_eq_zero]
  intro e he
  simp [releasedMap_eq_none (h.kind_ne he hk)]

theorem Only.mmio_eq_nil (h : Only kinds t) (hk : .mmio ∉ kinds := by decide) : mmio t = [] :=
  MarvellW8897.mmio_eq_nil (fun _ he => isMmio_eq_false (h.kind_ne he hk))

theorem Only.lastCommand_eq_none (h : Only kinds t) (hk : .enable ∉ kinds := by decide) :
    lastCommand busMasterSetting t = none ∧ lastCommand memorySetting t = none :=
  ⟨Effect.lastCommand_eq_none (fun _ he => (settings_eq_none (h.kind_ne he hk)).1),
    Effect.lastCommand_eq_none (fun _ he => (settings_eq_none (h.kind_ne he hk)).2)⟩

theorem Only.providerCounts_eq_zero (h : Only kinds t) (hk : .provider ∉ kinds := by decide) :
    retainCount t = 0 ∧ releaseCount t = 0 ∧ openCount t = 0 ∧ closeCount t = 0 := by
  have hq : ∀ e ∈ t, _ := fun e he => provider_quiet (e := e) (h.kind_ne he hk)
  refine ⟨?_, ?_, ?_, ?_⟩
  · exact List.countP_eq_zero.mpr (fun e he => by simp [(hq e he).1])
  · exact List.countP_eq_zero.mpr (fun e he => by simp [(hq e he).2.1])
  · exact List.countP_eq_zero.mpr (fun e he => by simp [(hq e he).2.2.1])
  · exact List.countP_eq_zero.mpr (fun e he => by simp [(hq e he).2.2.2])

end Quiet

end MarvellW8897
