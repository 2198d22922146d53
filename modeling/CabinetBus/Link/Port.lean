-- SUMMARY: Setting up a serial port, opening one by name, and a port that lives in memory.
import CabinetBus.Bytes.Basic
import CabinetBus.Error
import CabinetBus.Link.Settings

/-! # Ports

A port is set up by four calls in a fixed order, and the first that it refuses
ends the setup. A port in memory has a fixed input, records the calls made on it,
and refuses the calls that it is told to refuse. -/

namespace CabinetBus

/-! ## Setup -/

/-- A parameter that is set on an open port. -/
inductive PortParameter where
  | dataBits (bits : DataBits)
  | parity (parity : Parity)
  | stopBits (bits : StopBits)
  | noFlowControl
  deriving DecidableEq, Repr

/-- The parameters in the order in which they are set; flow control is always off. -/
def SerialSettings.parameters (s : SerialSettings) : List PortParameter :=
  [.dataBits s.dataBits, .parity s.parity, .stopBits s.stopBits, .noFlowControl]

/-- Sets parameters until the port refuses one, and gives those it was asked for. -/
def setParameters (refuse : PortParameter → Option String) :
    List PortParameter → List PortParameter × Except LinkError Unit
  | [] => ([], .ok ())
  | p :: rest =>
      match refuse p with
      | some text => ([p], .error (.serial text))
      | none =>
          let (asked, result) := setParameters refuse rest
          (p :: asked, result)

def SerialSettings.configure (s : SerialSettings) (refuse : PortParameter → Option String) :
    List PortParameter × Except LinkError Unit :=
  setParameters refuse s.parameters

/-! ## Opening by name -/

/-- A host, told by what it answers when it is asked for the port of a name at a baud rate: the
text of a fault, or the port, which is told by the parameters that it refuses. -/
structure Host where
  answer : String → UInt32 → Except String (PortParameter → Option String)

/-- Opens the named port of a host and sets it up. -/
def SerialSettings.openOn (host : Host) (s : SerialSettings) : Except LinkError Unit :=
  if s.portName.isEmpty then .error (.serial "no port name configured")
  else
    match host.answer s.portName s.baudRate with
    | .error fault => .error (.serial fault)
    | .ok refuse => (s.configure refuse).2

/-! ### Laws -/

theorem setParameters_eq_error {refuse : PortParameter → Option String}
    {parameters : List PortParameter} {e : LinkError}
    (h : (setParameters refuse parameters).2 = .error e) : ∃ text, e = .serial text := by
  induction parameters with
  | nil => cases h
  | cons p rest ih =>
      unfold setParameters at h
      split at h
      · next text _ =>
          cases h
          exact ⟨text, rfl⟩
      · exact ih h

/-- A port that is not opened or not set up is reported with a text. -/
theorem SerialSettings.openOn_eq_error {host : Host} {s : SerialSettings} {e : LinkError}
    (h : s.openOn host = .error e) : ∃ text, e = .serial text := by
  unfold openOn at h
  split at h
  · cases h
    exact ⟨_, rfl⟩
  · split at h
    · cases h
      exact ⟨_, rfl⟩
    · exact setParameters_eq_error h

/-! ## A port in memory -/

inductive PortCall where
  | read (size : Nat)
  | write (data : Bytes)
  | flush
  | setTimeout (milliseconds : UInt64)
  | clone
  deriving DecidableEq, Repr

inductive PortAnswer where
  | data (bytes : Bytes)
  | count (n : Nat)
  | done
  deriving DecidableEq, Repr

/-- The kind under which a refused call is reported: transfers time out, and the
calls that only ports have are reported without a kind of their own. -/
def PortCall.refusalKind : PortCall → IoKind
  | .read _ | .write _ | .flush => .timedOut
  | .setTimeout _ | .clone => .other

structure MemoryPort where
  input : Bytes
  calls : List PortCall
  deriving DecidableEq, Repr

namespace MemoryPort

def ofInput (input : Bytes) : MemoryPort := ⟨input, []⟩

/-- Makes one call. All clones of a port share its input and its record of calls. -/
def perform (p : MemoryPort) (refuse : PortCall → Option String) (call : PortCall) :
    Except IoError PortAnswer × MemoryPort :=
  let noted := { p with calls := p.calls ++ [call] }
  match refuse call with
  | some text => (.error ⟨call.refusalKind, text⟩, noted)
  | none =>
      match call with
      | .read size => (.ok (.data (p.input.take size)), { noted with input := p.input.drop size })
      | .write data => (.ok (.count data.length), noted)
      | .flush | .setTimeout _ | .clone => (.ok .done, noted)

end MemoryPort

end CabinetBus
