-- SUMMARY: The requests that the host sends, and the writer that frames them in one scratch buffer.
import CabinetBus.Bytes.Cursor
import CabinetBus.Frame.Framing
import CabinetBus.Message.Identifier

/-! # Requests

A request is an identifier and a short payload. The writer builds each request in
the same scratch buffer, over whatever the last one left there. -/

namespace CabinetBus

inductive Request where
  | staticStatus
  /-- Detector calls, two bytes per bus interface unit. -/
  | detect (calls : UInt64)
  /-- Enables the units whose flags are set. -/
  | configure (flags : UInt8)
  /-- Asks for unit counters; a reset byte that is not zero clears them. -/
  | biuDiagnostics (reset : UInt8)
  | sdlcDiagnostics (reset : UInt8)
  | dynamicStatus
  | siuDiagnostics (reset : UInt8)
  deriving DecidableEq, Repr

namespace Request

def identifier : Request → Identifier
  | staticStatus => .staticStatusRequest
  | detect _ => .sendDetectData
  | configure _ => .configBiuRequest
  | biuDiagnostics _ => .biuDiagnosticRequest
  | sdlcDiagnostics _ => .sdlcDiagnosticRequest
  | dynamicStatus => .dynamicStatusRequest
  | siuDiagnostics _ => .siuDiagnosticRequest

/-- The payload bytes, as the device expects them. -/
def payload : Request → Bytes
  | staticStatus | dynamicStatus => []
  | detect calls => ByteOrder.little.word 8 calls.toNat
  | configure flags => [0x01, flags]
  | biuDiagnostics reset | sdlcDiagnostics reset | siuDiagnostics reset => [reset]

/-- Writes one byte. -/
def writeByte (b : UInt8) (c : Cursor) : Cursor := c.writeWord .big 1 b.toNat

/-- Writes the payload fields one after another. -/
def writePayload (c : Cursor) : Request → Cursor
  | staticStatus | dynamicStatus => c
  | detect calls => c.writeWord .little 8 calls.toNat
  | configure flags => writeByte flags (writeByte 0x01 c)
  | biuDiagnostics reset | sdlcDiagnostics reset | siuDiagnostics reset => writeByte reset c

end Request

/-! ## The writer -/

structure RequestWriter where
  scratch : Bytes
  deriving DecidableEq, Repr

namespace RequestWriter

/-- The largest request is well below this. -/
def scratchSize : Nat := 64

def empty : RequestWriter := ⟨Bytes.zeros scratchSize⟩

/-- The identifier of the last request written. -/
def identifier (w : RequestWriter) : Identifier := Identifier.ofByte (w.scratch.getD 1 0)

/-- Builds a request behind the start marker and frames it. -/
def write (w : RequestWriter) (request : Request) : Except LinkError Bytes × RequestWriter :=
  let opened := Request.writeByte Frame.startMarker (Cursor.writer w.scratch)
  let written := Request.writePayload (Request.writeByte request.identifier.toByte opened) request
  match written.error with
  | some e => (.error (.cursor e), ⟨written.buffer⟩)
  | none =>
      let outcome := Frame.encode written.buffer written.writePos
      match outcome.result with
      | .error e => (.error (.frame e), ⟨outcome.buffer⟩)
      | .ok frame => (.ok frame, ⟨outcome.buffer⟩)

end RequestWriter

end CabinetBus
