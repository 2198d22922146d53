-- SUMMARY: A reader that unframes one inbound frame at a time and reads reports from it.
import CabinetBus.Bytes.Hex
import CabinetBus.Frame.Unframing
import CabinetBus.Message.Identifier
import CabinetBus.Message.Report
import CabinetBus.Time.Calendar

/-! # Report reader

The reader owns one buffer that every load reuses. Reports are read between the
identifier and the checksum, so a short payload is an error and never reads
checksum bytes as data. When a frame cannot be unframed, none is loaded. -/

namespace CabinetBus

structure ReportReader where
  buffer : Bytes
  /-- The length of the loaded frame, zero if there is none. -/
  length : Nat
  deriving DecidableEq, Repr

namespace ReportReader

def bufferSize : Nat := 256

/-- The offset of the payload in an unframed frame. -/
def payloadOffset : Nat := 2

/-- A reader with nothing loaded. -/
def empty : ReportReader := ⟨Bytes.zeros bufferSize, 0⟩

/-! ## Loading -/

/-- Unframes a raw frame into the buffer. -/
def load (r : ReportReader) (wire : Bytes) : Except LinkError Unit × ReportReader :=
  let outcome := Frame.decodeInto wire r.buffer
  match outcome.result with
  | .ok decoded => (.ok (), ⟨outcome.buffer, decoded.length⟩)
  | .error e => (.error (.frame e), ⟨outcome.buffer, 0⟩)

/-- Unframes a frame given as hexadecimal text. Text that is no hexadecimal leaves
the reader as it is. -/
def loadHex (r : ReportReader) (text : String) : Except LinkError Unit × ReportReader :=
  match Bytes.ofHex? text with
  | some wire => r.load wire
  | none => (.error (.invalidHex text), r)

/-! ## The loaded frame -/

def frame (r : ReportReader) : Bytes := r.buffer.take r.length

def dataLength (r : ReportReader) : Nat := Frame.dataLength r.frame

def identifier (r : ReportReader) : Identifier := Identifier.ofByte (r.frame.getD 1 0)

/-- A cursor over the payload. -/
def payload (r : ReportReader) : Cursor :=
  Cursor.reader r.frame payloadOffset (payloadOffset + r.dataLength)

/-! ## Reports -/

def report (r : ReportReader) (fields : Cursor.Fields α) : Except LinkError α :=
  match Cursor.record fields r.payload with
  | .ok value => .ok value
  | .error e => .error (.cursor e)

def staticStatus (r : ReportReader) : Except LinkError StaticStatus :=
  r.report (StaticStatus.fields r.dataLength)

def dynamicStatus (r : ReportReader) : Except LinkError DynamicStatus :=
  r.report (DynamicStatus.fields r.dataLength)

def sdlcDiagnostics (r : ReportReader) : Except LinkError SdlcDiagnostics :=
  r.report SdlcDiagnostics.fields

def biuDiagnostics (r : ReportReader) : Except LinkError BiuDiagnostics :=
  r.report BiuDiagnostics.fields

def siuDiagnostics (r : ReportReader) : Except LinkError SiuDiagnostics :=
  r.report SiuDiagnostics.fields

def cmuFrame (r : ReportReader) : Except LinkError CmuFrame := r.report CmuFrame.fields

def acknowledge (r : ReportReader) : Except LinkError UInt8 := r.report Cursor.byte

/-- The six fields of a date and time broadcast, whether or not they name an instant. -/
def dateTimeFields : Cursor.Fields DateTime := do
  let year ← Cursor.byte
  let month ← Cursor.byte
  let day ← Cursor.byte
  let hour ← Cursor.byte
  let minute ← Cursor.byte
  let second ← Cursor.byte
  return { year := 2000 + year.toNat, month := month.toNat, day := day.toNat,
           hour := hour.toNat, minute := minute.toNat, second := second.toNat }

def dateTime (r : ReportReader) : Except LinkError DateTime :=
  match r.report dateTimeFields with
  | .error e => .error e
  | .ok t =>
      if t.IsValid then .ok t
      else .error (.invalidDateTime
        { year := t.year, month := t.month, day := t.day, hour := t.hour, minute := t.minute,
          second := t.second })

end ReportReader

end CabinetBus
