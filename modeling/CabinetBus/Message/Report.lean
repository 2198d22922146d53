-- SUMMARY: The typed reports that the device sends, and the fields each is read from.
import CabinetBus.Bytes.Cursor
import CabinetBus.Json.Printer
import CabinetBus.Message.Mode
import CabinetBus.Message.Presence

/-! # Reports

Each report is a record and a reading of consecutive payload fields. Bytes after
the last field are not looked at. -/

namespace CabinetBus

/-! ## Firmware and mode -/

structure StaticStatus where
  /-- The installed units. -/
  biu : Presence
  majorVersion : UInt8
  minorVersion : UInt8
  serial : UInt64
  protocolVersion : UInt8
  mode : Mode
  /-- The report carries the mapped-mode byte. -/
  isModeMapped : Bool
  deriving DecidableEq, Repr

namespace StaticStatus

/-- The payload length of a report with the mapped-mode byte. -/
def modeMappedLength : Nat := 14

def fields (payloadLength : Nat) : Cursor.Fields StaticStatus := do
  let biu ← Cursor.byte
  let majorVersion ← Cursor.byte
  let minorVersion ← Cursor.byte
  let serial ← Cursor.readWord .little 8
  let protocolVersion ← Cursor.byte
  let mode ← Cursor.byte
  return { biu := ⟨biu⟩, majorVersion, minorVersion, serial := UInt64.ofNat serial,
           protocolVersion, mode := ⟨mode⟩, isModeMapped := payloadLength == modeMappedLength }

def toJson (s : StaticStatus) : Json :=
  .object
    [(Json.glyphs "BIU", .ofNat s.biu.flags.toNat),
     (Json.glyphs "BIUMaskHO", .ofString s.biu.maskText),
     (Json.glyphs "MajorVersion", .ofNat s.majorVersion.toNat),
     (Json.glyphs "MinorVersion", .ofNat s.minorVersion.toNat),
     (Json.glyphs "Serial", .ofString (Text.hexadecimal 16 s.serial.toNat)),
     (Json.glyphs "ProtocolVersion", .ofNat s.protocolVersion.toNat),
     (Json.glyphs "Mode", .ofString s.mode.text)]

end StaticStatus

/-! ## Uptime and link health -/

structure DynamicStatus where
  sinceLastComms : UInt32
  requestedCount : UInt8
  uptimeDays : UInt8
  uptimeMinutes : UInt32
  sdlcFailCount : Option UInt8
  uartFailCount : Option UInt8
  isFailSafeMapped : Bool
  deriving DecidableEq, Repr

namespace DynamicStatus

/-- The trailing counters go by the payload length: five bytes carry the fail-safe
counter, six bytes both, and any other length neither. -/
def fields (payloadLength : Nat) : Cursor.Fields DynamicStatus := do
  let comms ← Cursor.byte
  let requested ← Cursor.byte
  let days ← Cursor.byte
  let sixMinutes ← Cursor.byte
  let status : DynamicStatus :=
    { sinceLastComms := comms.toUInt32 * 10, requestedCount := requested, uptimeDays := days,
      uptimeMinutes := sixMinutes.toUInt32 * 6, sdlcFailCount := none, uartFailCount := none,
      isFailSafeMapped := false }
  match payloadLength with
  | 5 =>
      let sdlc ← Cursor.byte
      return { status with sdlcFailCount := some sdlc, isFailSafeMapped := true }
  | 6 =>
      let sdlc ← Cursor.byte
      let uart ← Cursor.byte
      return { status with sdlcFailCount := some sdlc, uartFailCount := some uart }
  | _ => return status

end DynamicStatus

/-! ## Link error counters -/

/-- The count that one diagnostic byte stands for: exact up to 128, in steps of 128
above. -/
def expandCount (raw : UInt8) : UInt32 :=
  if raw < 129 then raw.toUInt32 else (raw.toUInt32 - 127) * 128

structure SdlcDiagnostics where
  shortFrameError : UInt32
  controlError : UInt32
  crcError : UInt32
  idleError : UInt32
  framingError : UInt32
  longFrameError : UInt32
  deriving DecidableEq, Repr

def SdlcDiagnostics.fields : Cursor.Fields SdlcDiagnostics := do
  let short ← Cursor.byte
  let control ← Cursor.byte
  let crc ← Cursor.byte
  let idle ← Cursor.byte
  let framing ← Cursor.byte
  let long ← Cursor.byte
  return { shortFrameError := expandCount short, controlError := expandCount control,
           crcError := expandCount crc, idleError := expandCount idle,
           framingError := expandCount framing, longFrameError := expandCount long }

/-! ## Message counters -/

structure BiuDiagnostics where
  mmuLoadSwitchCounter : UInt8
  dateTimeBroadcastCounter : UInt8
  /-- One counter per unit. -/
  callDataRequestCounter : List UInt8
  /-- One counter per unit. -/
  resetDiagnosticCounter : List UInt8
  serviceRequestCounter : UInt8
  reservedCounter : UInt8
  deriving DecidableEq, Repr

def BiuDiagnostics.fields : Cursor.Fields BiuDiagnostics := do
  let mmu ← Cursor.byte
  let dateTime ← Cursor.byte
  let callData ← Cursor.byteList Presence.unitCount
  let reset ← Cursor.byteList Presence.unitCount
  let service ← Cursor.byte
  let reserved ← Cursor.byte
  return { mmuLoadSwitchCounter := mmu, dateTimeBroadcastCounter := dateTime,
           callDataRequestCounter := callData, resetDiagnosticCounter := reset,
           serviceRequestCounter := service, reservedCounter := reserved }

structure SiuDiagnostics where
  statusCounter : UInt8
  millisecondCounter : UInt8
  inputConfigCounter : UInt8
  pollRawCounter : UInt8
  pollFilteredCounter : UInt8
  transitionBufferCounter : UInt8
  moduleIdCounter : UInt8
  timeDateCounter : UInt8
  moduleDescriptionCounter : UInt8
  deriving DecidableEq, Repr

def SiuDiagnostics.fields : Cursor.Fields SiuDiagnostics := do
  let status ← Cursor.byte
  let millisecond ← Cursor.byte
  let inputConfig ← Cursor.byte
  let pollRaw ← Cursor.byte
  let pollFiltered ← Cursor.byte
  let transitionBuffer ← Cursor.byte
  let moduleId ← Cursor.byte
  let timeDate ← Cursor.byte
  let moduleDescription ← Cursor.byte
  return { statusCounter := status, millisecondCounter := millisecond,
           inputConfigCounter := inputConfig, pollRawCounter := pollRaw,
           pollFilteredCounter := pollFiltered, transitionBufferCounter := transitionBuffer,
           moduleIdCounter := moduleId, timeDateCounter := timeDate,
           moduleDescriptionCounter := moduleDescription }

/-! ## Signal state -/

structure CmuFrame where
  /-- Selects the width of the three channel fields. -/
  mode : Mode
  green : UInt32
  yellow : UInt32
  red : UInt32
  deriving DecidableEq, Repr

namespace CmuFrame

/-- TS2 controllers send channel fields of two bytes, ATC controllers of four. -/
def channelWidth (mode : Mode) : Nat := if mode.isTs2 then 2 else 4

def bitWidth (f : CmuFrame) : Nat := 8 * channelWidth f.mode

def fields : Cursor.Fields CmuFrame := do
  let bits ← Cursor.byte
  let width := channelWidth ⟨bits⟩
  let green ← Cursor.readWord .big width
  let yellow ← Cursor.readWord .big width
  let red ← Cursor.readWord .big width
  return { mode := ⟨bits⟩, green := UInt32.ofNat green, yellow := UInt32.ofNat yellow,
           red := UInt32.ofNat red }

def text (f : CmuFrame) : String :=
  let channel (bits : UInt32) : String :=
    Text.hexadecimal (2 * channelWidth f.mode) bits.toNat
  "Mode: " ++ f.mode.text ++ ", Green: " ++ channel f.green ++ ", Yellow: " ++
    channel f.yellow ++ ", Red: " ++ channel f.red

end CmuFrame

end CabinetBus
