-- SUMMARY: The serial link: paced connects, bounded reads, drained writes, idempotent disconnects.
import CabinetBus.Link.Port
import CabinetBus.Link.Pacing

/-! # Connections

A connection holds a reader and a writer handle on one port, or neither. Each
operation is given the answers of the port and leaves a trace of events: the calls
made on the port and the reports made to the owner, in order. A failing read or
write takes the link down before it is reported. -/

namespace CabinetBus

/-! ## Vocabulary -/

inductive LinkState where
  | disconnected
  | connecting
  | connected
  deriving DecidableEq, Repr

namespace LinkState

def name : LinkState → String
  | disconnected => "Disconnected"
  | connecting => "Connecting"
  | connected => "Connected"

def all : List LinkState := [disconnected, connecting, connected]

def ofJson? : Json → Option LinkState := Json.choice? (all.map fun state => (state.name, state))

def toJson (state : LinkState) : Json := .ofString state.name

end LinkState

/-- What happens on a link, with the state of the link at that moment. -/
inductive LinkEvent where
  /-- The port is asked for. -/
  | opening (portName : String) (baudRate : UInt32) (timeoutMs : UInt64) (state : LinkState)
  | portTimeout (timeoutMs : UInt64)
  /-- The port accepts bytes. -/
  | portWrite (accepted : Bytes)
  | portWriteError
  | portFlush
  | connect (state : LinkState)
  | disconnect (state : LinkState)
  | error (e : LinkError) (state : LinkState)
  /-- A whole message is written and drained. -/
  | wrote (data : Bytes) (state : LinkState)
  | read (data : Bytes) (state : LinkState)
  deriving DecidableEq, Repr

/-! ## Answers of a port -/

/-- How a scripted opener answers, and then the port it gives. -/
structure OpenScript where
  openError : Option LinkError
  timeoutError : Option IoError
  cloneError : Option IoError
  deriving DecidableEq, Repr

def OpenScript.success : OpenScript := ⟨none, none, none⟩

inductive Opener where
  | scripted (script : OpenScript)
  /-- The opener of a host. Of its port nothing is told but that it opened: it takes its timeout,
  it can be split, and the calls on it go unrecorded. -/
  | system (host : Host)

structure ReadScript where
  timeoutError : Option IoError
  answer : Except IoError Bytes

inductive WriteAnswer where
  /-- Accepts at most `count` bytes. -/
  | accept (count : Nat)
  | fail (e : IoError)
  deriving DecidableEq, Repr

/-- One answer per write call; after the last one everything is accepted. -/
structure WriteScript where
  answers : List WriteAnswer
  flushError : Option IoError
  deriving DecidableEq, Repr

def WriteScript.success : WriteScript := ⟨[], none⟩

/-! ## The connection -/

structure Connection where
  settings : SerialSettings
  readTimeoutMs : UInt64
  pacing : Pacing
  hasReader : Bool
  hasWriter : Bool
  connected : Bool
  connecting : Bool
  deriving DecidableEq, Repr

/-- The answer of an operation on a link, the link after it, and what happened. -/
structure LinkStep (α : Type) where
  value : α
  link : Connection
  events : List LinkEvent

namespace Connection

/-- A link that nothing has opened yet. -/
def closed (settings : SerialSettings) (readTimeoutMs : UInt64) (pacing : Pacing) : Connection :=
  { settings, readTimeoutMs, pacing, hasReader := false, hasWriter := false, connected := false,
    connecting := false }

def state (c : Connection) : LinkState :=
  if c.connected then .connected
  else if c.connecting then .connecting
  else .disconnected

/-! ### Connecting -/

inductive Attempt where
  | alreadyConnected
  /-- The pacing lets this attempt pass by. -/
  | declined
  | opening
  deriving DecidableEq, Repr

/-- Decides whether the port is to be opened now. -/
def begin (c : Connection) : Attempt × Connection :=
  if c.connected then (.alreadyConnected, c)
  else
    let (permitted, pacing) := c.pacing.attempt
    if permitted then (.opening, { c with pacing, connecting := true })
    else (.declined, { c with pacing })

/-- Opens the port, sets its timeout and splits it into two handles. -/
def openPort (c : Connection) : Opener → Except LinkError Unit × List LinkEvent
  | .system host => (c.settings.openOn host, [])
  | .scripted script =>
      let asked := LinkEvent.opening c.settings.portName c.settings.baudRate c.readTimeoutMs c.state
      match script.openError with
      | some e => (.error e, [asked])
      | none =>
          match script.timeoutError, script.cloneError with
          | some e, _ => (.error (.io e), [asked, .portTimeout c.readTimeoutMs])
          | none, some e => (.error (.io e), [asked, .portTimeout c.readTimeoutMs])
          | none, none => (.ok (), [asked, .portTimeout c.readTimeoutMs])

/-- Ends an attempt that was begun. Only success resets the pacing. -/
def complete (c : Connection) (opener : Opener) : LinkStep Bool :=
  let (result, events) := c.openPort opener
  let idle := { c with connecting := false }
  match result with
  | .ok () =>
      let up := { idle with hasReader := true, hasWriter := true, connected := true,
                            pacing := c.pacing.reset }
      ⟨true, up, events ++ [.connect up.state]⟩
  | .error e => ⟨false, idle, events ++ [.error e idle.state]⟩

/-- Makes sure that the port is open, if the pacing permits to try. -/
def connect (c : Connection) (opener : Opener) : LinkStep Bool :=
  match c.begin with
  | (.alreadyConnected, next) => ⟨true, next, []⟩
  | (.declined, next) => ⟨false, next, []⟩
  | (.opening, next) => next.complete opener

/-! ### Disconnecting -/

/-- Closes both handles; only a connected link reports it. -/
def disconnect (c : Connection) : LinkStep Unit :=
  if c.connected then
    let down := { c with connected := false, hasReader := false, hasWriter := false }
    ⟨(), down, [.disconnect down.state]⟩
  else ⟨(), c, []⟩

/-- Takes the link down on a failure and reports it. -/
def fail (c : Connection) (e : LinkError) : LinkStep Unit :=
  let down := c.disconnect
  ⟨(), down.link, down.events ++ [.error e down.link.state]⟩

/-! ### Reading -/

/-- What one read of the port gives. -/
def portRead (script : ReadScript) (size : Nat) : Except IoError Bytes :=
  match script.timeoutError with
  | some e => .error e
  | none => script.answer.map (List.take size)

/-- Reads at most `size` bytes. Timeouts and the end of the input give no bytes. -/
def read (c : Connection) (size : Nat) (script : ReadScript) : LinkStep Bytes :=
  if c.hasReader then
    let asked := LinkEvent.portTimeout c.readTimeoutMs
    match portRead script size with
    | .ok [] => ⟨[], c, [asked]⟩
    | .ok data => ⟨data, c, [asked, .read data c.state]⟩
    | .error e =>
        if e.kind.isTransient then ⟨[], c, [asked]⟩
        else
          let failed := c.fail (.io e)
          ⟨[], failed.link, asked :: failed.events⟩
  else ⟨[], c, []⟩

/-! ### Writing -/

/-- The failure of a port that accepts nothing. -/
def writeZero : IoError := ⟨.writeZero, "failed to write whole buffer"⟩

/-- Writes until the port has taken all of `data`. An interrupted call is made again,
any other failure and a call that accepts nothing end it. -/
def writeAll : Bytes → List WriteAnswer → List LinkEvent × Except IoError Unit
  | [], _ => ([], .ok ())
  | data, [] => ([.portWrite data], .ok ())
  | data, .accept count :: answers =>
      let accepted := data.take count
      if accepted.isEmpty then ([.portWrite []], .error writeZero)
      else
        let (events, result) := writeAll (data.drop count) answers
        (.portWrite accepted :: events, result)
  | data, .fail e :: answers =>
      if e.kind = .interrupted then
        let (events, result) := writeAll data answers
        (.portWriteError :: events, result)
      else ([.portWriteError], .error e)

/-- Writes all of `data` and drains it to the device. -/
def portWrite (data : Bytes) (script : WriteScript) : List LinkEvent × Except IoError Unit :=
  match writeAll data script.answers with
  | (events, .error e) => (events, .error e)
  | (events, .ok ()) =>
      (events ++ [.portFlush],
        match script.flushError with
        | some e => .error e
        | none => .ok ())

def write (c : Connection) (data : Bytes) (script : WriteScript) :
    LinkStep (Except LinkError Unit) :=
  if c.hasWriter then
    match portWrite data script with
    | (events, .ok ()) => ⟨.ok (), c, events ++ [.wrote data c.state]⟩
    | (events, .error e) =>
        let failed := c.fail (.io e)
        ⟨.error (.io e), failed.link, events ++ failed.events⟩
  else ⟨.error .notConnected, c, [.error .notConnected c.state]⟩

end Connection

/-! ## Sequences of operations -/

inductive LinkCall where
  | connect (opener : Opener)
  | read (size : Nat) (script : ReadScript)
  | write (data : Bytes) (script : WriteScript)
  | disconnect

inductive LinkAnswer where
  | verdict (connected : Bool)
  | data (bytes : Bytes)
  | outcome (result : Except LinkError Unit)
  | none

namespace Connection

def call (c : Connection) : LinkCall → LinkStep LinkAnswer
  | .connect opener =>
      let step := c.connect opener
      ⟨.verdict step.value, step.link, step.events⟩
  | .read size script =>
      let step := c.read size script
      ⟨.data step.value, step.link, step.events⟩
  | .write data script =>
      let step := c.write data script
      ⟨.outcome step.value, step.link, step.events⟩
  | .disconnect =>
      let step := c.disconnect
      ⟨.none, step.link, step.events⟩

/-- Makes calls in order and gives the step of each. -/
def calls (c : Connection) : List LinkCall → List (LinkStep LinkAnswer)
  | [] => []
  | call :: rest =>
      let step := c.call call
      step :: step.link.calls rest

end Connection

end CabinetBus
