-- SUMMARY: Starting and stopping the service, and runs of its steps in any order.
import CabinetBus.Service.Inbound
import CabinetBus.Service.Outbound

/-! # Lifecycle

A service is started once and stopped for good. A stop lets the message being sent
and the attempt to open end in whatever way the port answers them, drops what is
queued, takes the link down and ends both activities. -/

namespace CabinetBus

/-! ## Starting and stopping -/

/-- How the port answers what is in progress when a service is stopped. -/
structure LastAnswers where
  write : WriteScript
  opener : Opener
  read : ReadScript

namespace Service

/-- Starts both activities. A disabled service stays as it is. Each activity has a thread, and the
system is taken to give both. Left out are its two refusals: without a thread for the reader the
start is undone, without one for the writer only the reader runs; either is the answer. -/
def start (s : Service η) : Except LinkError Unit × Service η :=
  if !s.config.enabled then (.ok (), s)
  else if s.terminating then (.error .serviceNotRunning, s)
  else if s.started then (.ok (), s)
  else (.ok (), { s with started := true, reader := .running, writer := .waiting })

/-- Ends both activities. -/
def stop (s : Service η) (last : LastAnswers) : ServiceStep η :=
  ({ s with terminating := true }.completeWrite last.write)
    |>.andThen (fun s => .quiet s.takeNext)
    |>.andThen (fun s =>
      match s.reader with
      | .opening => (s.completeOpen last.opener).andThen (·.receive last.read)
      | _ => .quiet s)
    |>.andThen beginTurn
    |>.andThen (fun s => .quiet s.dropQueue)

end Service

/-! ## Runs -/

/-- What can happen to a service. -/
inductive ServiceAction (η : Type) where
  | write (data : Bytes)
  | setHandler (handler : η)
  | start
  | stop (last : LastAnswers)
  | takeNext
  | completeWrite (script : WriteScript)
  | beginTurn
  | completeOpen (opener : Opener)
  | receive (script : ReadScript)

namespace Service

def perform (s : Service η) : ServiceAction η → ServiceStep η
  | .write data => .quiet (s.write data)
  | .setHandler handler => .quiet (s.setHandler handler)
  | .start => .quiet s.start.2
  | .stop last => s.stop last
  | .takeNext => .quiet s.takeNext
  | .completeWrite script => s.completeWrite script
  | .beginTurn => s.beginTurn
  | .completeOpen opener => s.completeOpen opener
  | .receive script => s.receive script

/-- Lets actions happen in order. -/
def run (s : Service η) : List (ServiceAction η) → ServiceStep η
  | [] => .quiet s
  | action :: rest => (s.perform action).andThen (run · rest)

/-! ## Laws -/

theorem run_nil (s : Service η) : s.run [] = .quiet s := rfl

theorem run_cons (s : Service η) (action : ServiceAction η) (rest : List (ServiceAction η)) :
    s.run (action :: rest) = (s.perform action).andThen (run · rest) := rfl

theorem run_append (s : Service η) (before after : List (ServiceAction η)) :
    s.run (before ++ after) = (s.run before).andThen (run · after) := by
  induction before generalizing s with
  | nil => rfl
  | cons action rest ih =>
      simp only [List.cons_append, run_cons, ih, ServiceStep.andThen_assoc]

end Service

end CabinetBus
