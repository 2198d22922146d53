-- SUMMARY: Steps on a bench and what can be seen after each.
import CabinetBus.Bench.Basic

/-! # Bench sessions

A session is a list of steps. After each the bench settles, and an observation
gives the state of the service and what is new since the step before. -/

namespace CabinetBus

/-! ## Steps -/

inductive BenchStep where
  | write (data : Bytes)
  | start
  | stop
  /-- Lets time pass. -/
  | idle
  | grant (grants : List (Option String))
  | feed (chunks : List (Except IoError Bytes))
  | failWrites (fault : Option IoError)
  | hold
  | release
  | listen (name : String) (successor : Option String)
  | silence
  /-- Makes a poller with a watch of its own. -/
  | newPoller
  /-- Registers the latest watch with the service. -/
  | watch
  | tick (atMs : Nat)
  /-- Hands a frame to the latest watch. -/
  | deliver (wire : Bytes)
  /-- Registers the latest watch and sends the first request of the poller. -/
  | startPoller
  | stopPoller

inductive BenchAnswer where
  | none
  | outcome (result : Except LinkError Unit)
  | verdict (due : Bool)

namespace Bench

/-- The watch of the latest poller. -/
def latestWatch (b : Bench) : Listener :=
  match b.watches.length with
  | 0 => .silent
  | count + 1 => .watch count

/-- The latest static status that the latest watch has seen. -/
def status (b : Bench) : Option StaticStatus := b.watches.getLast?.bind (·.snapshot)

/-- What the port answers when the service is stopped. -/
def lastAnswers (b : Bench) : LastAnswers :=
  { write := b.device.writeScript, opener := Device.closedGate, read := ⟨none, .ok []⟩ }

def tick (b : Bench) (now : Nat) : Bool × Bench :=
  match b.poller with
  | none => (false, b)
  | some poller =>
      let (due, next, service) := poller.tick b.service now
      (due, { b with poller := some next, service })

/-- Does what a step says, and does not settle. -/
def perform (b : Bench) : BenchStep → BenchAnswer × Bench
  | .write data => (.none, { b with service := b.service.write data })
  | .start =>
      let (result, service) := b.service.start
      (.outcome result, { b with service })
  | .stop => (.none, b.absorb (b.service.stop b.lastAnswers))
  | .idle | .stopPoller => (.none, b)
  | .grant grants => (.none, { b with device := b.device.grant grants })
  | .feed chunks => (.none, { b with device := b.device.feed chunks })
  | .failWrites fault => (.none, { b with device := { b.device with writeFault := fault } })
  | .hold => (.none, { b with device := { b.device with isHeld := true } })
  | .release => (.none, { b with device := { b.device with isHeld := false } })
  | .listen name successor =>
      (.none, { b with service := b.service.setHandler (.recorder name successor) })
  | .silence => (.none, { b with service := b.service.setHandler .silent })
  | .newPoller =>
      (.none, { b with
        poller := some (.ofConfig b.service.config)
        watches := b.watches ++ [.new] })
  | .watch => (.none, { b with service := b.service.setHandler b.latestWatch })
  | .tick atMs =>
      let (due, next) := b.tick (atMs * Poller.nanosPerMilli)
      (.verdict due, next)
  | .deliver wire => (.none, b.react b.latestWatch (.frame wire))
  | .startPoller =>
      if b.service.isRunning then
        let (_, next) := { b with service := b.service.setHandler b.latestWatch }.tick 0
        (.outcome (.ok ()), { next with poller := none })
      else (.outcome (.error .serviceNotRunning), { b with poller := none })

end Bench

/-! ## Observations -/

/-- What can be seen after a step. -/
structure Observation where
  answer : BenchAnswer
  isRunning : Bool
  state : LinkState
  queueLength : Nat
  inUse : UInt64
  /-- The idle buffers, once the service is at rest. -/
  available : Option Nat
  counters : List (Counter × UInt64)
  /-- What the recorders were told since the last step. -/
  heard : List (String × Notice)
  /-- The new entries of the audit trail. -/
  audit : List AuditEntry
  /-- What was put on the wire since the last step. -/
  wire : List Bytes
  status : Option StaticStatus

namespace Bench

/-- Makes a step and lets the bench settle. -/
def observe (b : Bench) (step : BenchStep) : Observation × Bench :=
  let (answer, performed) := { b with heard := [], wire := [] }.perform step
  let next := performed.settle
  let s := next.service
  ({ answer
     isRunning := s.isRunning
     state := s.link.state
     queueLength := s.queue.length
     inUse := s.pool.inUse
     available := if s.isRunning then none else some s.pool.available
     counters := if next.showsRecords then s.tally.snapshot else []
     heard := next.heard
     audit := if next.showsRecords then s.audit.drop b.service.audit.length else []
     wire := next.wire
     status := next.status }, next)

/-- Makes steps in order. -/
def session (b : Bench) : List BenchStep → List Observation
  | [] => []
  | step :: rest =>
      let (seen, next) := b.observe step
      seen :: next.session rest

end Bench

end CabinetBus
