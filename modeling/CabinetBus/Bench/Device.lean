-- SUMMARY: A device in memory that answers opens, reads and writes from queues.
import CabinetBus.Bench.Host
import CabinetBus.Service.Inbound

/-! # Bench device

Each attempt to open takes the next grant, and waits while there is none. Reads
take from one queue of chunks, which outlives the link. Writes are accepted,
refused by a fault, or held back until they are released. -/

namespace CabinetBus.Bench

/-- What the opener answers. -/
inductive Gate where
  /-- One answer per attempt: nothing for success, or the text of a failure. -/
  | queued (grants : List (Option String))
  /-- A host, which answers at once. -/
  | host (host : Host)

structure Device where
  gate : Gate
  /-- What reads return: bytes, or a failure. -/
  chunks : List (Except IoError Bytes)
  /-- What every write fails with. -/
  writeFault : Option IoError
  isHeld : Bool

namespace Device

/-- A device behind a gate, with nothing to say. -/
def new (gate : Gate) : Device := ⟨gate, [], none, false⟩

/-! ## Opening -/

/-- A port that opens, or does not for the given reason. -/
def openerOf (failure : Option String) : Opener :=
  .scripted { OpenScript.success with openError := failure.map .serial }

/-- What the opener is once the gate is closed. -/
def closedGate : Opener := openerOf (some "gate closed")

def grant (d : Device) (grants : List (Option String)) : Device :=
  match d.gate with
  | .queued earlier => { d with gate := .queued (earlier ++ grants) }
  | .host _ => d

/-- The answer to the next attempt, if there is one yet. -/
def nextOpener? (d : Device) : Option (Opener × Device) :=
  match d.gate with
  | .queued [] => none
  | .queued (grant :: later) => some (openerOf grant, { d with gate := .queued later })
  | .host host => some (.system host, d)

/-! ## Reading -/

def feed (d : Device) (chunks : List (Except IoError Bytes)) : Device :=
  { d with chunks := d.chunks ++ chunks }

/-- The answer to the next read, if there is one yet. What a read leaves of a chunk
comes with the next one. -/
def nextRead? (d : Device) : Option (Except IoError Bytes × Device) :=
  match d.chunks with
  | [] => none
  | .error e :: later => some (.error e, { d with chunks := later })
  | .ok bytes :: later =>
      let rest := bytes.drop Service.readSize
      some (.ok bytes,
        { d with chunks := if rest.isEmpty then later else .ok rest :: later })

/-- The next read takes the link down. -/
def breaksNext (d : Device) : Bool :=
  match d.chunks with
  | .error e :: _ => !e.kind.isTransient
  | _ => false

/-- The number of reads that have an answer. -/
def readCount (d : Device) : Nat :=
  d.chunks.foldl (fun
    | count, .error _ => count + 1
    | count, .ok bytes => count + bytes.length / Service.readSize + 1) 0

/-! ## Writing -/

/-- The answer to a write. -/
def writeScript (d : Device) : WriteScript :=
  { WriteScript.success with answers := (d.writeFault.map .fail).toList }

end Device

end CabinetBus.Bench
