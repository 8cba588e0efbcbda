import MarvellW8897.Kext.Bringup

/-!
# `MarvellW8897Controller` and `MarvellW8897Debug`

The lifecycle of the controller: `start` opens the provider, enables the device, maps its BARs and
runs the bring-up; `stop` undoes all of it. `fPCIDevice` is a flag, since all that is asked of the
pointer is whether it is null.
-/

namespace MarvellW8897

open Effect

structure Controller where
  fPCIDevice : Bool := false
  fDeviceOpen : Bool := false
  fPciBarState : PciBarState := {}
  fTransportState : TransportState := {}
  fBringupResult : BringupResult := {}
  fVendorId : UInt16 := 0
  fDeviceId : UInt16 := 0
  fSubVendorId : UInt16 := 0
  fSubSystemId : UInt16 := 0
  fRevisionId : UInt8 := 0
  fClassCode : UInt32 := 0
  fCommand : UInt16 := 0
  fStatus : UInt16 := 0
  fInterruptLine : UInt8 := 0
  fInterruptPin : UInt8 := 0

namespace Controller

/-! ## start -/

/-- The identity registers, read once after `open`. -/
def readIdentity (c : Controller) : DeviceM Controller := do
  let fVendorId : UInt16 ← ask (.configRead16 kIOPCIConfigVendorID)
  let fDeviceId : UInt16 ← ask (.configRead16 kIOPCIConfigDeviceID)
  let fSubVendorId : UInt16 ← ask (.configRead16 kIOPCIConfigSubSystemVendorID)
  let fSubSystemId : UInt16 ← ask (.configRead16 kIOPCIConfigSubSystemID)
  let fRevisionId : UInt8 ← ask (.configRead8 kIOPCIConfigRevisionID)
  let revisionAndClass : UInt32 ← ask (.configRead32 kIOPCIConfigRevisionID)
  let fCommand : UInt16 ← ask (.configRead16 kIOPCIConfigCommand)
  let fStatus : UInt16 ← ask (.configRead16 kIOPCIConfigStatus)
  let fInterruptLine : UInt8 ← ask (.configRead8 kIOPCIConfigInterruptLine)
  let fInterruptPin : UInt8 ← ask (.configRead8 kIOPCIConfigInterruptPin)
  return { c with
    fVendorId, fDeviceId, fSubVendorId, fSubSystemId, fRevisionId
    fClassCode := revisionAndClass >>> 8
    fCommand, fStatus, fInterruptLine, fInterruptPin }

/-- Memory decoding and bus mastering on, then the command and status registers again. -/
def enableDevice (c : Controller) : DeviceM Controller := do
  ask (.setMemoryEnable true)
  ask (.setBusMasterEnable true)
  let fCommand : UInt16 ← ask (.configRead16 kIOPCIConfigCommand)
  let fStatus : UInt16 ← ask (.configRead16 kIOPCIConfigStatus)
  return { c with fCommand, fStatus }

/-- `releaseMappedBars`. -/
def releaseMappedBars (c : Controller) : DeviceM Controller := do
  let fPciBarState ← PciBars.release c.fPciBarState
  return { c with fPciBarState }

/-- `if (fDeviceOpen) { fPCIDevice->close(this); fDeviceOpen = false; }` -/
def closeDevice (c : Controller) : DeviceM Controller :=
  if c.fDeviceOpen then do
    ask .closeProvider
    return { c with fDeviceOpen := false }
  else return c

/-- The exit that `start` takes when the mapping or the bring-up failed (written out twice). -/
def failStart (c : Controller) : DeviceM (Bool × Controller) := do
  let c ← releaseMappedBars c
  -- closed first and disabled afterwards; `stop` does it the other way round
  let c ← closeDevice c
  ask (.setBusMasterEnable false)
  ask (.setMemoryEnable false)
  ask .release
  return (false, { c with fPCIDevice := false })

/-- `start` from the bring-up on. -/
def startMapped (host : ByteOrder) (c : Controller) : DeviceM (Bool × Controller) := do
  -- an unknown device is only logged: `run` reports the missing profile
  let (_, fTransportState) := Transport.configurePcieProfile (Transport.reset c.fTransportState)
    c.fVendorId c.fDeviceId
  let (ok, fTransportState, fBringupResult) ←
    Bringup.run host c.fPciBarState fTransportState (Bringup.reset c.fBringupResult)
  let c := { c with fTransportState, fBringupResult }
  if !ok then failStart c
  else
    ask .registerService
    return (true, c)

/-- `start` once the provider is open. -/
def startOpened (host : ByteOrder) (c : Controller) : DeviceM (Bool × Controller) := do
  let c ← readIdentity c
  let c ← enableDevice c
  let (mapped, fPciBarState) ← PciBars.mapDeviceBars c.fPCIDevice c.fPciBarState
  let c := { c with fPciBarState }
  if !mapped then failStart c
  else startMapped host c

def start (host : ByteOrder) (c : Controller) : DeviceM (Bool × Controller) := do
  let started : Bool ← ask .superStart
  if !started then return (false, c)
  else
    let fPCIDevice : Bool ← ask .dynamicCast
    if !fPCIDevice then return (false, { c with fPCIDevice := false })
    else
      ask .retain
      let opened : Bool ← ask .openProvider
      if !opened then
        ask .release
        return (false, { c with fPCIDevice := false })
      else startOpened host { c with fPCIDevice := true, fDeviceOpen := true }

/-! ## stop -/

def stop (c : Controller) : DeviceM Controller := do
  let c ← releaseMappedBars c
  let c ←
    if c.fPCIDevice then do
      ask (.setBusMasterEnable false)
      ask (.setMemoryEnable false)
      let c ← closeDevice c
      ask .release
      pure { c with fPCIDevice := false }
    else pure c
  let c := { c with
    fTransportState := Transport.reset c.fTransportState
    fBringupResult := Bringup.reset c.fBringupResult }
  ask .superStop
  return c

/-! ## What the user client calls -/

def readReg32FromBar (host : ByteOrder) (c : Controller) (barIndex offset : UInt32) :
    DeviceM (Option UInt32) :=
  Transport.readReg32FromBar host c.fPciBarState barIndex offset

def writeReg32ToBar (host : ByteOrder) (c : Controller) (barIndex offset value : UInt32) :
    DeviceM Bool :=
  Transport.writeReg32ToBar host c.fPciBarState barIndex offset value

def writeReg32ToBarWithFlush (host : ByteOrder) (c : Controller)
    (barIndex offset value : UInt32) : DeviceM (Option UInt32 × Controller) := do
  let (readBack, fTransportState) ←
    Transport.writeReg32ToBarWithFlush host c.fPciBarState c.fTransportState barIndex offset value
  return (readBack, { c with fTransportState })

def getPciIdentity (c : Controller) : List UInt64 :=
  [c.fVendorId.toUInt64, c.fDeviceId.toUInt64, c.fSubVendorId.toUInt64, c.fSubSystemId.toUInt64,
    c.fRevisionId.toUInt64, c.fClassCode.toUInt64, c.fCommand.toUInt64, c.fStatus.toUInt64,
    c.fInterruptLine.toUInt64, c.fInterruptPin.toUInt64]

def getBarInfoLegacy (c : Controller) (barIndex : UInt32) : Option (List UInt64) :=
  PciBars.getBarInfoLegacy c.fPciBarState barIndex

def getBarInfoV2 (c : Controller) (barIndex : UInt32) : DeviceM (Option (List UInt64)) :=
  PciBars.getBarInfoV2 c.fPciBarState barIndex

def getTransportState (c : Controller) : List UInt64 :=
  Transport.getTransportState c.fTransportState

def getBringupResult (c : Controller) : List UInt64 := Bringup.fields c.fBringupResult

end Controller

/-! ## Debug ABI -/

namespace Debug

def kBarInfoLegacyCount : UInt64 := 8
def kBarInfoV2Count : UInt64 := 11
def kTransportStateCount : UInt64 := 8

def kDebugSelectorBitmap : UInt64 :=
  let one : UInt64 := 1
  (one <<< 0) ||| (one <<< 1) ||| (one <<< 2) ||| (one <<< 3) ||| (one <<< 4) |||
    (one <<< 5) ||| (one <<< 6) ||| (one <<< 7) ||| (one <<< 8)

def getDebugAbiInfo : List UInt64 :=
  [1, 0, kDebugSelectorBitmap, kBarInfoLegacyCount, kBarInfoV2Count, kTransportStateCount]

end Debug

end MarvellW8897
