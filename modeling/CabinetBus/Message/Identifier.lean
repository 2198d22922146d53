-- SUMMARY: The one-byte message identifiers of requests and responses.
import CabinetBus.Text.Numeral

/-! # Identifiers

The identifier is the second byte of a frame. Bytes outside the catalog are kept
as they are. -/

namespace CabinetBus

inductive Identifier where
  | staticStatusRequest
  | sendDetectData
  | configBiuRequest
  | biuDiagnosticRequest
  | sdlcDiagnosticRequest
  | dynamicStatusRequest
  | siuDiagnosticRequest
  | staticStatusResponse
  | cmuFrameStream
  | dateTimeStream
  | biuDiagnosticResponse
  | sdlcDiagnosticResponse
  | siuDiagnosticResponse
  | dynamicStatusResponse
  | acknowledge
  /-- A byte outside the catalog. -/
  | unknown (byte : UInt8)
  deriving DecidableEq, Repr

namespace Identifier

def ofByte (byte : UInt8) : Identifier :=
  match byte with
  | 0x10 => staticStatusRequest
  | 0x11 => sendDetectData
  | 0x12 => configBiuRequest
  | 0x13 => biuDiagnosticRequest
  | 0x14 => sdlcDiagnosticRequest
  | 0x15 => dynamicStatusRequest
  | 0x16 => siuDiagnosticRequest
  | 0x40 => staticStatusResponse
  | 0x41 => cmuFrameStream
  | 0x42 => dateTimeStream
  | 0x43 => biuDiagnosticResponse
  | 0x44 => sdlcDiagnosticResponse
  | 0x45 => siuDiagnosticResponse
  | 0x46 => dynamicStatusResponse
  | 0x4F => acknowledge
  | other => unknown other

def toByte : Identifier → UInt8
  | staticStatusRequest => 0x10
  | sendDetectData => 0x11
  | configBiuRequest => 0x12
  | biuDiagnosticRequest => 0x13
  | sdlcDiagnosticRequest => 0x14
  | dynamicStatusRequest => 0x15
  | siuDiagnosticRequest => 0x16
  | staticStatusResponse => 0x40
  | cmuFrameStream => 0x41
  | dateTimeStream => 0x42
  | biuDiagnosticResponse => 0x43
  | sdlcDiagnosticResponse => 0x44
  | siuDiagnosticResponse => 0x45
  | dynamicStatusResponse => 0x46
  | acknowledge => 0x4F
  | unknown byte => byte

def isUnknown : Identifier → Bool
  | unknown _ => true
  | _ => false

/-- Identifiers that the host sends. -/
def isRequest (id : Identifier) : Bool :=
  0x10 ≤ id.toByte && id.toByte ≤ 0x16 && !id.isUnknown

/-- Identifiers that the device sends. -/
def isResponse (id : Identifier) : Bool := !id.isUnknown && !id.isRequest

def name : Identifier → String
  | staticStatusRequest => "StaticStatusRequest"
  | sendDetectData => "SendDetectData"
  | configBiuRequest => "ConfigBIURequest"
  | biuDiagnosticRequest => "BIUDiagnosticRequest"
  | sdlcDiagnosticRequest => "SDLCDiagnosticRequest"
  | dynamicStatusRequest => "DynamicStatusRequest"
  | siuDiagnosticRequest => "SIUDiagnosticRequest"
  | staticStatusResponse => "StaticStatusResponse"
  | cmuFrameStream => "CMUFrameStream"
  | dateTimeStream => "DateTimeStream"
  | biuDiagnosticResponse => "BIUDiagnosticResponse"
  | sdlcDiagnosticResponse => "SDLCDiagnosticResponse"
  | siuDiagnosticResponse => "SIUDiagnosticResponse"
  | dynamicStatusResponse => "DynamicStatusResponse"
  | acknowledge => "Acknowledge"
  | unknown byte => "Unknown(0x" ++ Text.hexadecimal 2 byte.toNat ++ ")"

/-! ## Laws -/

theorem toByte_ofByte (byte : UInt8) : (ofByte byte).toByte = byte := by
  unfold ofByte
  split <;> rfl

end Identifier

end CabinetBus
