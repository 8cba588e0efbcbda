import MarvellW8897.Effect.Program

/-!
# What the kext asks of IOKit and of the device

Every call that leaves the kext's own code is a request: the `IOService` superclass, the
`IOPCIDevice` provider, the `IOMemoryMap` objects it hands out, and the 32-bit loads and stores
through a mapped pointer. The answers are the environment's, so a device that changes a
configuration dword between two reads is covered too. `IOLog` is left out.
-/

namespace MarvellW8897

open Effect

/-! ## Constants of `MarvellW8897Regs.hpp` and of IOKit -/

abbrev kMaxBars : Nat := 6
abbrev kMaxResources : Nat := 8
def kInvalidResourceIndex : UInt32 := 0xFFFFFFFF

def kIOPCIConfigVendorID : UInt8 := 0x00
def kIOPCIConfigDeviceID : UInt8 := 0x02
def kIOPCIConfigCommand : UInt8 := 0x04
def kIOPCIConfigStatus : UInt8 := 0x06
def kIOPCIConfigRevisionID : UInt8 := 0x08
def kIOPCIConfigBaseAddress0 : UInt8 := 0x10
def kIOPCIConfigSubSystemVendorID : UInt8 := 0x2C
def kIOPCIConfigSubSystemID : UInt8 := 0x2E
def kIOPCIConfigInterruptLine : UInt8 := 0x3C
def kIOPCIConfigInterruptPin : UInt8 := 0x3D

/-! ## Mappings and pointers -/

/-- An `IOMemoryMap` object. `handle` is its identity; the rest is what its getters return. -/
structure IOMemoryMap where
  handle : Nat
  virtualAddress : UInt64
  length : UInt64
  physicalAddress : UInt64
deriving DecidableEq, Repr

/--
A `volatile void*` into device memory. The address is all the code sees; `origin` is the handle of
the mapping the address was taken from, so that a stale pointer differs from a live one.
-/
structure MmioPtr where
  address : UInt64 := 0
  origin : Option Nat := none
deriving DecidableEq, Repr

/-- The pointer `getVirtualAddress` gives. -/
def IOMemoryMap.pointer (m : IOMemoryMap) : MmioPtr :=
  { address := m.virtualAddress, origin := some m.handle }

/-! ## Requests -/

inductive DeviceOp where
  | superStart
  | superStop
  /-- `OSDynamicCast(IOPCIDevice, provider)`: whether the result is non-null. -/
  | dynamicCast
  | retain
  | release
  | openProvider
  | closeProvider
  | configRead8 (offset : UInt8)
  | configRead16 (offset : UInt8)
  | configRead32 (offset : UInt8)
  | setMemoryEnable (enable : Bool)
  | setBusMasterEnable (enable : Bool)
  | getDeviceMemoryCount
  | mapDeviceMemoryWithIndex (index : UInt32)
  | unmap (handle : Nat)
  | releaseMap (handle : Nat)
  | load (reg : MmioPtr) (offset : UInt32)
  | store (reg : MmioPtr) (offset : UInt32) (value : UInt32)
  | delay (usec : UInt32)
  | registerService
  /-- A read of `resources[index].physicalAddress` past the end of the array: any value at all. -/
  | readPastResources (index : UInt32)
deriving DecidableEq, Repr

abbrev DeviceOp.Resp : DeviceOp → Type
  | .superStart | .dynamicCast | .openProvider => Bool
  | .configRead8 _ => UInt8
  | .configRead16 _ => UInt16
  | .configRead32 _ | .getDeviceMemoryCount | .load _ _ => UInt32
  | .mapDeviceMemoryWithIndex _ => Option IOMemoryMap
  | .readPastResources _ => UInt64
  | _ => Unit

abbrev DeviceEvent := Event DeviceOp DeviceOp.Resp

abbrev DeviceM := Program DeviceOp DeviceOp.Resp

/-- One request of the device. -/
abbrev ask (op : DeviceOp) : DeviceM op.Resp := Program.ask op

/-! ## Loads and stores -/

/-- Whether a request is a 32-bit MMIO load or store. -/
def DeviceOp.isMmio : DeviceOp → Bool
  | .load _ _ | .store _ _ _ => true
  | _ => false

/-- The loads and stores of a trace, in order. -/
def mmio (t : List DeviceEvent) : List DeviceEvent := t.filter (fun e => e.op.isMmio)

@[simp] theorem mmio_nil : mmio [] = [] := rfl

@[simp] theorem mmio_append (t u : List DeviceEvent) : mmio (t ++ u) = mmio t ++ mmio u :=
  List.filter_append ..

theorem mmio_eq_nil {t : List DeviceEvent} (h : ∀ e ∈ t, e.op.isMmio = false) : mmio t = [] :=
  List.filter_eq_nil_iff.mpr (fun e he => by simp [h e he])

/-! ## Byte order -/

/-- The byte order of the host the kext runs on. -/
inductive ByteOrder where
  | little
  | big
deriving DecidableEq, Repr

/-- `OSSwapInt32`: the four bytes of `v` in reverse order. -/
def osSwapInt32 (v : UInt32) : UInt32 :=
  let mask : UInt32 := 0xFF00
  (v <<< 24) ||| ((v &&& mask) <<< 8) ||| ((v >>> 8) &&& mask) ||| (v >>> 24)

def osSwapLittleToHostInt32 (host : ByteOrder) (v : UInt32) : UInt32 :=
  match host with
  | .little => v
  | .big => osSwapInt32 v

def osSwapHostToLittleInt32 (host : ByteOrder) (v : UInt32) : UInt32 :=
  match host with
  | .little => v
  | .big => osSwapInt32 v

end MarvellW8897
