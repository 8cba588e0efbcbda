import MarvellW8897.Kext.PciBars

/-!
# `MarvellW8897Transport`

The PCIe profile of the 88W8897, the transport state that selector 5 exports, and the checked
32-bit register accesses.
-/

namespace MarvellW8897

open Effect

/-! ## Profile -/

def kVendorIdMarvell88W8897 : UInt16 := 0x11ab
def kDeviceIdMarvell88W8897 : UInt16 := 0x2b38
def kPcieScratch3Reg : UInt32 := 0x0C44
def kPcieScratch10Reg : UInt32 := 0x0CE8
def kPcieScratch11Reg : UInt32 := 0x0CEC
def kPcieScratch12Reg : UInt32 := 0x0CF0
def kPcieRdDataPtrQ0Q1 : UInt32 := 0xC08C
def kPcieWrDataPtrQ0Q1 : UInt32 := 0xC05C
def kPcie8897TxRingMask : UInt32 := 0x03FF0000
def kPcie8897TxRingWrapMask : UInt32 := 0x07FF0000
def kPcie8897RxRingMask : UInt32 := 0x000003FF
def kPcie8897RxRingWrapMask : UInt32 := 0x000007FF
def kPcie8897DefaultFirmwareName : String := "mrvl/pcie8897_uapsta.bin"

def kTransportQuirkTxWritePointerReadback : UInt32 := (1 : UInt32) <<< 0
def kTransportQuirkIgnoreBtcoexEvents : UInt32 := (1 : UInt32) <<< 1

inductive TransportProfileKind where
  | none
  | mwifiexPcie8897
deriving DecidableEq, Repr

structure TransportPcieProfile where
  kind : TransportProfileKind := .none
  firmwareStatusReg : UInt32 := 0
  driverReadyReg : UInt32 := 0
  txReadPointerReg : UInt32 := 0
  txWritePointerReg : UInt32 := 0
  rxReadPointerReg : UInt32 := 0
  rxWritePointerReg : UInt32 := 0
  eventReadPointerReg : UInt32 := 0
  eventWritePointerReg : UInt32 := 0
  txRingMask : UInt32 := 0
  txRingWrapMask : UInt32 := 0
  rxRingMask : UInt32 := 0
  rxRingWrapMask : UInt32 := 0
  quirkFlags : UInt32 := 0
  defaultFirmwareName : Option String := Option.none
deriving DecidableEq, Repr

structure TransportState where
  txRingWritePtr : UInt32 := 0
  txRingReadPtr : UInt32 := 0
  rxRingWritePtr : UInt32 := 0
  rxRingReadPtr : UInt32 := 0
  irqStatus : UInt32 := 0
  firmwareReady : UInt32 := 0
  lastEventId : UInt32 := 0
  btcoexEventsIgnored : UInt32 := 0
  pcieProfile : TransportPcieProfile := {}
deriving DecidableEq, Repr

namespace Transport

def reset (_state : TransportState) : TransportState := {}

/-- The profile of the 88W8897. -/
def pcie8897Profile : TransportPcieProfile where
  kind := .mwifiexPcie8897
  firmwareStatusReg := kPcieScratch3Reg
  driverReadyReg := kPcieScratch12Reg
  txReadPointerReg := kPcieRdDataPtrQ0Q1
  txWritePointerReg := kPcieWrDataPtrQ0Q1
  rxReadPointerReg := kPcieWrDataPtrQ0Q1
  rxWritePointerReg := kPcieRdDataPtrQ0Q1
  eventReadPointerReg := kPcieScratch10Reg
  eventWritePointerReg := kPcieScratch11Reg
  txRingMask := kPcie8897TxRingMask
  txRingWrapMask := kPcie8897TxRingWrapMask
  rxRingMask := kPcie8897RxRingMask
  rxRingWrapMask := kPcie8897RxRingWrapMask
  quirkFlags := kTransportQuirkTxWritePointerReadback ||| kTransportQuirkIgnoreBtcoexEvents
  defaultFirmwareName := some kPcie8897DefaultFirmwareName

def configurePcieProfile (state : TransportState) (vendorId deviceId : UInt16) :
    Bool × TransportState :=
  if vendorId != kVendorIdMarvell88W8897 || deviceId != kDeviceIdMarvell88W8897 then
    (false, { state with pcieProfile := {} })
  else
    (true, { state with pcieProfile := pcie8897Profile })

def getPcieProfile (state : TransportState) : Option TransportPcieProfile :=
  if state.pcieProfile.kind = .none then Option.none else some state.pcieProfile

/-! ## Register access -/

def kRegWidth : UInt32 := 4

/-- `readReg32FromBar`; `none` is `false`, with `valueOut` untouched. -/
def readReg32FromBar (host : ByteOrder) (pciBars : PciBarState) (barIndex offset : UInt32) :
    DeviceM (Option UInt32) :=
  if !PciBars.isMmioAccessValid pciBars barIndex offset kRegWidth then return Option.none
  else if h : barIndex.toNat < kMaxBars then do
    let raw : UInt32 ← ask (.load (pciBars.bars ⟨barIndex.toNat, h⟩).mappedPtr offset)
    return some (osSwapLittleToHostInt32 host raw)
  else return Option.none

def writeReg32ToBar (host : ByteOrder) (pciBars : PciBarState) (barIndex offset value : UInt32) :
    DeviceM Bool :=
  if !PciBars.isMmioAccessValid pciBars barIndex offset kRegWidth then return false
  else if h : barIndex.toNat < kMaxBars then do
    ask (.store (pciBars.bars ⟨barIndex.toNat, h⟩).mappedPtr offset
      (osSwapHostToLittleInt32 host value))
    return true
  else return false

/-- `writeReg32ToBarWithFlush`; the result is `readBack`, or `none` for `false`. -/
def writeReg32ToBarWithFlush (host : ByteOrder) (pciBars : PciBarState)
    (transportState : TransportState) (barIndex offset value : UInt32) :
    DeviceM (Option UInt32 × TransportState) := do
  if !(← writeReg32ToBar host pciBars barIndex offset value) then
    return (Option.none, transportState)
  else
    match ← readReg32FromBar host pciBars barIndex offset with
    | Option.none => return (Option.none, transportState)
    -- set for whatever register was written
    | some readBack => return (some readBack, { transportState with txRingWritePtr := value })

/-! ## Exported record -/

def getTransportState (state : TransportState) : List UInt64 :=
  [state.txRingWritePtr.toUInt64, state.txRingReadPtr.toUInt64, state.rxRingWritePtr.toUInt64,
    state.rxRingReadPtr.toUInt64, state.irqStatus.toUInt64, state.firmwareReady.toUInt64,
    state.lastEventId.toUInt64, state.btcoexEventsIgnored.toUInt64]

end Transport

end MarvellW8897
