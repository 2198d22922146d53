-- SUMMARY: The state of the duplex service, and how it takes note of what happens on the link.
import CabinetBus.Audit
import CabinetBus.Bytes.Hex
import CabinetBus.Config
import CabinetBus.Frame.Assembler
import CabinetBus.Link.Connection
import CabinetBus.Metrics
import CabinetBus.Service.BufferPool

/-! # The service

The service owns a link and two activities on it. The reader keeps the link open,
reads chunks and hands out the frames they complete. The writer sends queued
messages in order. Each of their moves is one step, which gives the service after
it, the notices given to the handler, and the events on the link. -/

namespace CabinetBus

/-! ## Phases -/

inductive ReaderPhase where
  /-- It was never started. -/
  | off
  /-- It is between two moves. -/
  | running
  /-- It waits for the answer of the opener. -/
  | opening
  | done
  deriving DecidableEq, Repr

inductive WriterPhase where
  /-- It was never started. -/
  | off
  /-- It waits for a message. -/
  | waiting
  /-- It waits for the port to take a message. -/
  | sending (message : MessageBuffer)
  | done
  deriving DecidableEq, Repr

/-! ## Notices -/

/-- What the service tells its handler. -/
inductive Notice where
  /-- A raw frame, still escaped. -/
  | frame (wire : Bytes)
  | failure (e : LinkError)
  /-- The reader has ended. -/
  | terminated
  deriving DecidableEq, Repr

/-! ## State -/

structure Service (η : Type) where
  config : Config
  link : Connection
  assembler : Frame.Assembler
  pool : BufferPool
  /-- The messages that wait for the writer, the oldest first. -/
  queue : List MessageBuffer
  /-- Who is given the notices. -/
  handler : η
  started : Bool
  /-- Set once, by a stop. -/
  terminating : Bool
  reader : ReaderPhase
  writer : WriterPhase
  tally : Tally
  /-- What was put on the audit trail, the oldest first. -/
  audit : List AuditEntry

structure ServiceStep (η : Type) where
  service : Service η
  /-- Each notice with the handler it was given to. -/
  notices : List (η × Notice)
  events : List LinkEvent

namespace ServiceStep

/-- A step that tells nobody anything. -/
def quiet (service : Service η) : ServiceStep η := ⟨service, [], []⟩

/-- One step after another. -/
def andThen (step : ServiceStep η) (next : Service η → ServiceStep η) : ServiceStep η :=
  let later := next step.service
  ⟨later.service, step.notices ++ later.notices, step.events ++ later.events⟩

/-! ### Laws -/

@[simp] theorem quiet_andThen (s : Service η) (next : Service η → ServiceStep η) :
    (quiet s).andThen next = next s := rfl

@[simp] theorem andThen_quiet (step : ServiceStep η) : step.andThen quiet = step := by
  simp [andThen, quiet]

theorem andThen_assoc (step : ServiceStep η) (next last : Service η → ServiceStep η) :
    (step.andThen next).andThen last = step.andThen fun s => (next s).andThen last := by
  simp [andThen]

end ServiceStep

namespace Service

/-- How many messages may wait, one at least. -/
def queueCapacityOf (config : Config) : Nat := max 1 config.writeQueueCapacity.toNat

/-- A service that was not started. -/
def new (config : Config) (handler : η) : Service η :=
  { config
    link := .closed config.serial config.readTimeoutMs (.ofEvery config.retryEvery)
    assembler := .withCapacity config.assemblerCapacity.toNat
    pool := .new (queueCapacityOf config + 2)
    queue := []
    handler
    started := false
    terminating := false
    reader := .off
    writer := .off
    tally := .zero
    audit := [] }

def queueCapacity (s : Service η) : Nat := queueCapacityOf s.config

def isRunning (s : Service η) : Bool := s.started && !s.terminating

def setHandler (s : Service η) (handler : η) : Service η := { s with handler }

/-! ## Records -/

def count (s : Service η) (counter : Counter) : Service η :=
  { s with tally := s.tally.increment counter }

/-- Counts one message and its bytes. -/
def countMessage (s : Service η) (messages bytes : Counter) (length : Nat) : Service η :=
  { s with tally := s.tally.addMessage messages bytes length }

def record (s : Service η) (action : AuditAction) (detail : String) : Service η :=
  { s with audit := s.audit ++ [⟨action, detail⟩] }

/-! ## Events on the link -/

/-- Takes note of one event: connects and disconnects are counted, traffic and
failures are put on the audit trail, and the handler is told of failures. -/
def observe (s : Service η) : LinkEvent → ServiceStep η
  | .connect _ => .quiet (s.count .connects)
  | .disconnect _ => .quiet (s.count .disconnects)
  | .error e _ => ⟨s.record .error e.message, [(s.handler, .failure e)], []⟩
  | .wrote data _ => .quiet (s.record .write (Bytes.toHex data))
  | .read data _ => .quiet (s.record .read (Bytes.toHex data))
  | .opening .. | .portTimeout _ | .portWrite _ | .portWriteError | .portFlush => .quiet s

/-- Takes note of events in order. -/
def observeAll (s : Service η) : List LinkEvent → ServiceStep η
  | [] => .quiet s
  | event :: rest => (s.observe event).andThen (observeAll · rest)

/-- Takes over the link from a step on it, and takes note of the events of that step. -/
def absorb (s : Service η) (step : LinkStep α) : ServiceStep η :=
  let observed := { s with link := step.link }.observeAll step.events
  { observed with events := step.events }

end Service

end CabinetBus
