import Mathlib.Logic.Function.Basic
import Mathlib.Data.List.FinRange
import MarvellW8897.Kext.Device

/-!
# `MarvellW8897PciBars`

BAR decoding, mapping of the device memory resources, the association of BAR slots with mapped
resources, and the check in front of every MMIO access. The two arrays of the C++ state have a
fixed size, so they are functions of a `Fin`; an index that the code does not check is a `UInt32`.
-/

namespace MarvellW8897

open Effect

/-! ## State -/

structure BarInfo where
  mappedPtr : MmioPtr := {}
  length : UInt64 := 0
  mappedResource : UInt32 := kInvalidResourceIndex
  rawLow : UInt32 := 0
  rawHigh : UInt32 := 0
  configValue : UInt64 := 0
  isMemory : Bool := false
  is64Bit : Bool := false
  isContinuation : Bool := false
  present : Bool := false
deriving DecidableEq, Repr

structure ResourceInfo where
  map : Option IOMemoryMap := none
  mappedPtr : MmioPtr := {}
  length : UInt64 := 0
  physicalAddress : UInt64 := 0
  claimed : Bool := false
deriving DecidableEq, Repr

structure PciBarState where
  bars : Fin kMaxBars → BarInfo := fun _ => {}
  resources : Fin kMaxResources → ResourceInfo := fun _ => {}
  resourceCount : UInt32 := 0

/-- A slot that may be associated: present, memory, and not an upper half. -/
def BarInfo.eligible (info : BarInfo) : Bool :=
  info.present && info.isMemory && !info.isContinuation

/-- A mapped resource that no slot has claimed. -/
def ResourceInfo.free (resource : ResourceInfo) : Bool :=
  resource.map.isSome && !resource.claimed

namespace PciBars

def setBar (state : PciBarState) (bar : Fin kMaxBars) (info : BarInfo) : PciBarState :=
  { state with bars := Function.update state.bars bar info }

def setResource (state : PciBarState) (i : Fin kMaxResources) (resource : ResourceInfo) :
    PciBarState :=
  { state with resources := Function.update state.resources i resource }

/-! ## reset and release -/

def reset (_state : PciBarState) : PciBarState :=
  { bars := fun _ => {}, resources := fun _ => {}, resourceCount := 0 }

/-- The body of the loop in `release`. -/
def releaseResource (state : PciBarState) (i : Fin kMaxResources) : DeviceM Unit :=
  match (state.resources i).map with
  | none => return ()
  | some map => do
    ask (.unmap map.handle)
    ask (.releaseMap map.handle)

def release (state : PciBarState) : DeviceM PciBarState := do
  (List.finRange kMaxResources).forM (releaseResource state)
  return reset state

/-! ## mapDeviceBars: decoding -/

def barRegOffset (bar : Fin kMaxBars) : UInt8 :=
  kIOPCIConfigBaseAddress0 + UInt8.ofNat bar.val * 4

/-- An address without its four flag bits: `x & ~0xFULL`. -/
def baseOf (x : UInt64) : UInt64 := x &&& 0xFFFFFFFFFFFFFFF0

/-- The `present` flag, from the decoded type and value of a slot. -/
def withPresent (info : BarInfo) : BarInfo :=
  if info.isMemory then { info with present := baseOf info.configValue != 0 }
  else { info with present := (info.rawLow &&& 0xFFFFFFFC) != 0 }

/-- A slot that the previous slot marked as its upper half. -/
def decodeContinuation (info : BarInfo) (rawLow : UInt32) : BarInfo :=
  { info with
    rawLow
    rawHigh := 0
    configValue := rawLow.toUInt64
    isMemory := false
    is64Bit := false
    present := false }

/-- A slot whose type is read from its own flag bits. -/
def decodeFlags (info : BarInfo) (rawLow : UInt32) : BarInfo :=
  let isMemory := (rawLow &&& 0x1) == 0
  { info with
    rawLow
    isMemory
    is64Bit := isMemory && (rawLow &&& 0x6) == 0x4 }

/-- The body of the decode loop. -/
def decodeBar (state : PciBarState) (bar : Fin kMaxBars) : DeviceM PciBarState := do
  let rawLow : UInt32 ← ask (.configRead32 (barRegOffset bar))
  if (state.bars bar).isContinuation then
    return setBar state bar (decodeContinuation (state.bars bar) rawLow)
  else
    let info := decodeFlags (state.bars bar) rawLow
    -- the last slot has no upper half, whatever its flags say
    if h : info.is64Bit = true ∧ bar.val + 1 < kMaxBars then
      let rawHigh : UInt32 ← ask (.configRead32 (barRegOffset bar + 4))
      -- the upper half is marked here, ahead of its own turn in the loop
      let next : Fin kMaxBars := ⟨bar.val + 1, h.2⟩
      let state := setBar state next { state.bars next with isContinuation := true }
      return setBar state bar (withPresent { info with
        rawHigh
        configValue := (rawHigh.toUInt64 <<< 32) ||| rawLow.toUInt64 })
    else
      return setBar state bar (withPresent { info with
        rawHigh := 0
        configValue := rawLow.toUInt64 })

def decodeBars (state : PciBarState) : DeviceM PciBarState :=
  (List.finRange kMaxBars).foldlM decodeBar state

/-! ## mapDeviceBars: mapping -/

/-- The indices below `resourceCount`, in loop order. -/
def resourceIndices (state : PciBarState) : List (Fin kMaxResources) :=
  (List.finRange kMaxResources).take state.resourceCount.toNat

/-- The count `getDeviceMemoryCount` gives, cut down to the size of the array. -/
def clampResourceCount (count : UInt32) : UInt32 :=
  if count > UInt32.ofNat kMaxResources then UInt32.ofNat kMaxResources else count

/-- The body of the mapping loop; the flag is `mappedAnyResource`. -/
def mapResource (acc : PciBarState × Bool) (i : Fin kMaxResources) :
    DeviceM (PciBarState × Bool) := do
  let map : Option IOMemoryMap ← ask (.mapDeviceMemoryWithIndex (UInt32.ofNat i.val))
  match map with
  | none => return acc
  | some map =>
    return (setResource acc.1 i { acc.1.resources i with
      map := some map
      mappedPtr := map.pointer
      length := map.length
      physicalAddress := map.physicalAddress }, true)

def mapResources (state : PciBarState) : DeviceM (PciBarState × Bool) :=
  (resourceIndices state).foldlM mapResource (state, false)

/-! ## mapDeviceBars: association -/

/-- Give resource `i` to slot `bar`. -/
def associate (state : PciBarState) (bar : Fin kMaxBars) (i : Fin kMaxResources) : PciBarState :=
  let resource := state.resources i
  let state := setBar state bar { state.bars bar with
    mappedResource := UInt32.ofNat i.val
    mappedPtr := resource.mappedPtr
    length := resource.length }
  setResource state i { resource with claimed := true }

/--
The body of both association loops: a slot that is not skipped takes the first free resource that
`fits` it.
-/
def associateFirst (wants : BarInfo → Bool) (fits : BarInfo → ResourceInfo → Bool)
    (state : PciBarState) (bar : Fin kMaxBars) : PciBarState :=
  let info := state.bars bar
  if wants info then
    match (resourceIndices state).find? (fun i =>
        (state.resources i).free && fits info (state.resources i)) with
    | some i => associate state bar i
    | none => state
  else state

/-- `resourceBase == expectedBase`. -/
def sameBase (info : BarInfo) (resource : ResourceInfo) : Bool :=
  baseOf resource.physicalAddress == baseOf info.configValue

/-- The first pass: exact base match. -/
def associateExact (state : PciBarState) : PciBarState :=
  (List.finRange kMaxBars).foldl (associateFirst BarInfo.eligible sameBase) state

/-- The second pass: a slot still without a resource takes any free one. -/
def associateFallback (state : PciBarState) : PciBarState :=
  (List.finRange kMaxBars).foldl
    (associateFirst (fun info => info.eligible && info.mappedResource == kInvalidResourceIndex)
      (fun _ _ => true)) state

def mappedAnyBar (state : PciBarState) : Bool :=
  (List.finRange kMaxBars).any (fun bar => (state.bars bar).mappedResource != kInvalidResourceIndex)

/-- `mapDeviceBars`; `pciDevice` says whether the provider pointer is non-null. -/
def mapDeviceBars (pciDevice : Bool) (state : PciBarState) : DeviceM (Bool × PciBarState) :=
  if !pciDevice then return (false, state)
  else do
    let state ← decodeBars (reset state)
    let count : UInt32 ← ask .getDeviceMemoryCount
    let (state, mappedAnyResource) ←
      mapResources { state with resourceCount := clampResourceCount count }
    if !mappedAnyResource then
      let state ← release state
      return (false, state)
    else
      let state := associateFallback (associateExact state)
      if !mappedAnyBar state then
        let state ← release state
        return (false, state)
      else
        return (true, state)

/-! ## isMmioAccessValid -/

def isMmioAccessValid (state : PciBarState) (barIndex offset accessWidth : UInt32) : Bool :=
  if h : barIndex.toNat < kMaxBars then
    let bar := state.bars ⟨barIndex.toNat, h⟩
    if bar.isContinuation then false
    else if !bar.present then false
    else if !bar.isMemory then false
    else if bar.mappedResource == kInvalidResourceIndex then false
    else if bar.mappedPtr.address == 0 || bar.length == 0 then false
    else if (offset &&& (accessWidth - 1)) != 0 then false
    -- a 64-bit sum of two 32-bit numbers
    else if offset.toUInt64 + accessWidth.toUInt64 > bar.length then false
    else true
  else false

/-! ## Exported records -/

/-- The eight fields that both records start with. -/
def barInfoFields (barIndex : UInt32) (bar : BarInfo) : List UInt64 :=
  [barIndex.toUInt64, bar.rawLow.toUInt64, bar.rawHigh.toUInt64, bar.configValue,
    bar.present.toUInt64, bar.isMemory.toUInt64, bar.is64Bit.toUInt64, bar.isContinuation.toUInt64]

def getBarInfoLegacy (state : PciBarState) (barIndex : UInt32) : Option (List UInt64) :=
  if h : barIndex.toNat < kMaxBars then
    some (barInfoFields barIndex (state.bars ⟨barIndex.toNat, h⟩))
  else none

/-- `state.resources[index].physicalAddress`, where nothing checks `index`. -/
def resourcePhysicalAddress (state : PciBarState) (index : UInt32) : DeviceM UInt64 :=
  if h : index.toNat < kMaxResources then
    return (state.resources ⟨index.toNat, h⟩).physicalAddress
  else ask (.readPastResources index)

def getBarInfoV2 (state : PciBarState) (barIndex : UInt32) : DeviceM (Option (List UInt64)) :=
  if h : barIndex.toNat < kMaxBars then do
    let bar := state.bars ⟨barIndex.toNat, h⟩
    let physicalAddress ←
      if bar.mappedResource != kInvalidResourceIndex then
        resourcePhysicalAddress state bar.mappedResource
      else pure 0
    return some (barInfoFields barIndex bar ++
      [bar.mappedResource.toUInt64, bar.length, physicalAddress])
  else return none

end PciBars

end MarvellW8897
