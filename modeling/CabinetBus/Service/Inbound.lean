-- SUMMARY: The way of bytes in: keeping the link open, assembling chunks, and handing out frames.
import CabinetBus.Service.Basic

/-! # Inbound bytes

The reader makes sure that the link is open, as far as the pacing permits, and
then reads one chunk. All frames that a chunk completes go to the handler of that
moment, even if one of them makes it give way to another. A chunk that does not
fit the assembler is lost with all that was pending. -/

namespace CabinetBus.Service

/-- The bytes asked for by one read. -/
def readSize : Nat := 256

/-! ## The link -/

/-- The last move of the reader. -/
def leaveReader (s : Service η) : ServiceStep η :=
  (s.absorb s.link.disconnect).andThen fun after =>
    ⟨{ after with reader := .done }, [(after.handler, .terminated)], []⟩

/-- Begins a turn: ends if the service is ending, or asks the opener if the link is
down and the pacing permits. -/
def beginTurn (s : Service η) : ServiceStep η :=
  match s.reader with
  | .running =>
      if s.terminating then s.leaveReader
      else
        match s.link.begin with
        | (.opening, link) => .quiet { s with link, reader := .opening }
        | (_, link) => .quiet { s with link }
  | _ => .quiet s

/-- The opener has answered. -/
def completeOpen (s : Service η) (opener : Opener) : ServiceStep η :=
  match s.reader with
  | .opening =>
      (s.absorb (s.link.complete opener)).andThen fun after =>
        .quiet { after with reader := .running }
  | _ => .quiet s

/-! ## Chunks -/

/-- Counts and assembles bytes that were read, and hands out the frames they complete. -/
def takeIn (s : Service η) (chunk : Bytes) : ServiceStep η :=
  if chunk.isEmpty then .quiet s
  else
    let counted := s.countMessage .reads .readBytes chunk.length
    match s.assembler.push chunk with
    | .error e =>
        ⟨{ counted with assembler := s.assembler.clear }.count .assemblerOverflows,
          [(s.handler, .failure (.assembler e))], []⟩
    | .ok full =>
        let (frames, rest) := full.drain
        ⟨{ counted with
            assembler := rest
            tally := counted.tally.add .pops (UInt64.ofNat frames.length) },
          frames.map fun wire => (s.handler, .frame wire), []⟩

/-- The port has answered a read. -/
def receive (s : Service η) (script : ReadScript) : ServiceStep η :=
  match s.reader with
  | .running =>
      let step := s.link.read readSize script
      (s.absorb step).andThen (·.takeIn step.value)
  | _ => .quiet s

end CabinetBus.Service
