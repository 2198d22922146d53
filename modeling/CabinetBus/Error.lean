-- SUMMARY: The failures of framing, decoding, assembling and transport, and the text of each.
import CabinetBus.Text.Numeral

/-! # Errors

Each failure is a constructor that carries what its report names; the wording
is one function per type. -/

namespace CabinetBus

open Text

/-! ## Framing -/

inductive FrameError where
  | overflow
  | invalidStart
  | invalidEnd
  | invalidBuffer
  | checksum (expected actual : BitVec 16)
  deriving DecidableEq, Repr

def FrameError.message : FrameError → String
  | .overflow => "SDLC transform target overflow"
  | .invalidStart => "SDLC invalid start marker"
  | .invalidEnd => "SDLC invalid end marker"
  | .invalidBuffer => "SDLC invalid buffer"
  | .checksum expected actual =>
      "SDLC CRC check failed: expected 0x" ++ hexadecimal 4 expected.toNat ++
        ", got 0x" ++ hexadecimal 4 actual.toNat

/-! ## Field access -/

inductive CursorError where
  /-- A read past the limit. -/
  | exhausted (needed offset limit : Nat)
  /-- A write past the end of the buffer. -/
  | overflow (needed offset capacity : Nat)
  deriving DecidableEq, Repr

def CursorError.message : CursorError → String
  | .exhausted needed offset limit =>
      "buffer exhausted: needed " ++ toString needed ++ " bytes at offset " ++ toString offset ++
        ", limit " ++ toString limit
  | .overflow needed offset capacity =>
      "buffer overflow: needed " ++ toString needed ++ " bytes at offset " ++ toString offset ++
        ", capacity " ++ toString capacity

/-! ## Assembly of partial reads -/

/-- The incoming bytes do not fit beside the pending ones. -/
structure AssemblerOverflow where
  incoming : Nat
  available : Nat
  deriving DecidableEq, Repr

def AssemblerOverflow.message (e : AssemblerOverflow) : String :=
  "frame assembler overflow: " ++ toString e.incoming ++ " incoming bytes, " ++
    toString e.available ++ " available"

/-! ## Transport -/

/-- What kind of failure a port or the file system reports. -/
inductive IoKind where
  | notFound
  | permissionDenied
  | connectionRefused
  | connectionReset
  | connectionAborted
  | notConnected
  | addrInUse
  | addrNotAvailable
  | brokenPipe
  | alreadyExists
  | wouldBlock
  | invalidInput
  | invalidData
  | timedOut
  | writeZero
  | interrupted
  | unsupported
  | unexpectedEof
  | outOfMemory
  | other
  deriving DecidableEq, Repr

/-- The kinds after which a read may simply be tried again. -/
def IoKind.isTransient : IoKind → Bool
  | .timedOut | .wouldBlock | .interrupted => true
  | _ => false

structure IoError where
  kind : IoKind
  message : String
  deriving DecidableEq, Repr

/-! ## The link as a whole -/

/-- Six fields that were read as a date and time but name no instant. -/
structure BadDateTime where
  year : Int
  month : Nat
  day : Nat
  hour : Nat
  minute : Nat
  second : Nat
  deriving DecidableEq, Repr

inductive LinkError where
  | serial (text : String)
  | notConnected
  | serviceNotRunning
  | frame (e : FrameError)
  | cursor (e : CursorError)
  | assembler (e : AssemblerOverflow)
  | invalidDateTime (fields : BadDateTime)
  | invalidHex (text : String)
  | payloadTooLarge (length capacity : Nat)
  | io (e : IoError)
  deriving DecidableEq, Repr

def BadDateTime.message (t : BadDateTime) : String :=
  "Invalid date/time " ++ signedDecimal 4 t.year ++ "-" ++ decimal 2 t.month ++ "-" ++
    decimal 2 t.day ++ " " ++ decimal 2 t.hour ++ ":" ++ decimal 2 t.minute ++ ":" ++
    decimal 2 t.second

def LinkError.message : LinkError → String
  | .serial text => "Serial port error: " ++ text
  | .notConnected => "Not connected to device"
  | .serviceNotRunning => "SDLC service is not running"
  | .frame e => "Codec error: " ++ e.message
  | .cursor e => "Decode error: " ++ e.message
  | .assembler e => "Assembler error: " ++ e.message
  | .invalidDateTime t => t.message
  | .invalidHex text => "Invalid hex input: " ++ text
  | .payloadTooLarge length capacity =>
      "Payload of " ++ toString length ++ " bytes exceeds write buffer capacity " ++
        toString capacity
  | .io e => "I/O error: " ++ e.message

end CabinetBus
