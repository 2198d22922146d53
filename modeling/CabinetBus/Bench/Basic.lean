-- SUMMARY: A service on a bench device, with listeners that log what they are told.
import CabinetBus.Bench.Device
import CabinetBus.Poll.Poller
import CabinetBus.Poll.StatusWatch
import CabinetBus.Service.Lifecycle

/-! # Bench

A bench runs a service against a bench device and lets it do all it can before the
next step. The writer goes first: what is queued when the service is started is
sent before the link can be up. Turns that the pacing declines pass by unseen, so a
reader without a link rests only where it waits for an answer of the device. -/

namespace CabinetBus

open Bench (Device Gate)

/-! ## Listeners -/

/-- The handlers that a bench registers with its service. -/
inductive Listener where
  | silent
  /-- Logs under its name. A successor takes over on the first frame. -/
  | recorder (name : String) (successor : Option String)
  /-- Passes frames on to one of the watches of the bench. -/
  | watch (index : Nat)
  deriving DecidableEq, Repr

/-! ## State -/

structure Bench where
  service : Service Listener
  device : Device
  /-- One watch for every poller there was. -/
  watches : List StatusWatch
  poller : Option Poller
  /-- What the recorders were told, with their names. -/
  heard : List (String × Notice)
  /-- What each write call put on the wire. -/
  wire : List Bytes
  /-- When false, counts and the audit trail are kept from view. -/
  showsRecords : Bool

namespace Bench

/-- The recorder that a new bench listens with. -/
def firstListener : Listener := .recorder "A" none

def new (config : Config) (gate : Gate) (showsRecords : Bool) : Bench :=
  { service := .new config firstListener
    device := .new gate
    watches := []
    poller := none
    heard := []
    wire := []
    showsRecords }

/-! ## Notices -/

/-- Hands a frame to one of the watches. -/
def feedWatch (b : Bench) (index : Nat) (wire : Bytes) : Bench :=
  match b.watches[index]? with
  | none => b
  | some watch =>
      let (next, tally) := watch.receive b.service.tally wire
      { b with watches := b.watches.set index next, service := { b.service with tally } }

/-- What a listener logs of a notice. -/
def logged : Listener × Notice → Option (String × Notice)
  | (.recorder name _, notice) => some (name, notice)
  | (.silent, _) | (.watch _, _) => none

/-- What a listener does on a notice, besides logging it. -/
def react (b : Bench) : Listener → Notice → Bench
  | .recorder _ (some other), .frame _ =>
      { b with service := b.service.setHandler (.recorder other none) }
  | .watch index, .frame wire => b.feedWatch index wire
  | _, _ => b

/-- Takes over the service from a step, and passes on its notices. -/
def absorb (b : Bench) (step : ServiceStep Listener) : Bench :=
  let written := step.events.filterMap fun
    | .portWrite accepted => some accepted
    | _ => none
  step.notices.foldl (fun b (listener, notice) => b.react listener notice)
    { b with
      service := step.service
      heard := b.heard ++ step.notices.filterMap logged
      wire := b.wire ++ written }

/-! ## Settling -/

/-- A write with bytes in it waits on an open port while writes are held. -/
def isWriteHeld (b : Bench) (message : MessageBuffer) : Bool :=
  b.device.isHeld && !message.isEmpty && b.service.link.hasWriter

/-- Lets the writer move, at most `limit` times. -/
def settleWriter : Nat → Bench → Bench
  | 0, b => b
  | limit + 1, b =>
      match b.service.writer with
      | .waiting =>
          if b.service.queue.isEmpty then b
          else settleWriter limit { b with service := b.service.takeNext }
      | .sending message =>
          if b.isWriteHeld message then b
          else settleWriter limit (b.absorb (b.service.completeWrite b.device.writeScript))
      | .off | .done => b

/-- A message is on its way through the port. -/
def isWriting (b : Bench) : Bool :=
  match b.service.writer with
  | .sending _ => true
  | _ => false

/-- Lets the turns pass by that the pacing declines. A host answers at once, so there
the turns are counted one by one. -/
def awaitPacing (b : Bench) : Bench :=
  match b.device.gate with
  | .queued _ => { b with service.link.pacing := b.service.link.pacing.waitOut }
  | .host _ => b

/-- Lets the reader move, at most `limit` times. The link is not taken down under a
write that is on its way. -/
def settleReader : Nat → Bench → Bench
  | 0, b => b
  | limit + 1, b =>
      match b.service.reader with
      | .running =>
          if b.service.link.hasReader then
            if b.device.breaksNext && b.isWriting then b
            else
              match b.device.nextRead? with
              | none => b
              | some (answer, device) =>
                  let next := { b with device }
                  settleReader limit (next.absorb (next.service.receive ⟨none, answer⟩))
          else
            let paced := b.awaitPacing
            let begun := paced.absorb paced.service.beginTurn
            if begun.service.reader = .opening then settleReader limit begun else begun
      | .opening =>
          match b.device.nextOpener? with
          | none => b
          | some (opener, device) =>
              settleReader limit ({ b with device }.absorb (b.service.completeOpen opener))
      | .off | .done => b

/-- The moves that use up every answer of the device: an attempt is begun and ended
for each grant, there is one move for each read, and at last the reader comes to rest. -/
def readerMoves (d : Device) : Nat :=
  let grants := match d.gate with
    | .queued grants => grants.length
    | .host _ => 1
  2 * grants + d.readCount + 1

/-- Lets the service do all it can. -/
def settle (b : Bench) : Bench :=
  let written := settleWriter (2 * b.service.queue.length + 2) b
  settleReader (readerMoves written.device) written

end Bench

end CabinetBus
