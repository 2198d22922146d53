-- SUMMARY: The poller that asks for the static status at a minimum interval.
import CabinetBus.Message.Request
import CabinetBus.Service.Outbound

/-! # Poller

A tick sends a static status request if none was sent yet, or if the last one is
at least an interval ago. A tick that lies before the last request counts as no
time since it. Instants are nanoseconds since an arbitrary origin. -/

namespace CabinetBus

structure Poller where
  /-- The shortest time from one request to the next. -/
  requestEvery : Nat
  writer : RequestWriter
  lastRequest : Option Nat
  deriving DecidableEq, Repr

namespace Poller

def nanosPerMilli : Nat := 1000000

def new (requestEvery : Nat) : Poller := ⟨requestEvery, .empty, none⟩

/-- The poller that a configuration asks for. -/
def ofConfig (config : Config) : Poller := new (config.staticRequestEveryMs.toNat * nanosPerMilli)

def isDue (p : Poller) (now : Nat) : Bool :=
  match p.lastRequest with
  | none => true
  | some last => p.requestEvery ≤ now - last

/-- Sends a request through the service if one is due, and says whether it was. -/
def tick (p : Poller) (s : Service η) (now : Nat) : Bool × Poller × Service η :=
  if p.isDue now then
    let counted := s.count .staticStatusRequests
    let (built, writer) := p.writer.write .staticStatus
    let sent :=
      match built with
      | .ok frame => counted.write frame
      | .error _ => counted
    (true, { p with writer, lastRequest := some now }, sent)
  else (false, p, s)

end Poller

end CabinetBus
