-- SUMMARY: A fixed buffer that collects partial reads and gives out one raw frame at a time.
import CabinetBus.Error
import CabinetBus.Frame.Marker

/-! # Frame assembler

Reads arrive in arbitrary chunks. The assembler keeps them in an area of fixed
capacity and carves frames out of the pending bytes, still escaped:

- bytes before the first start marker are dropped;
- a byte directly after an unescaped escape marker is never a marker;
- an unescaped start marker before the end marker restarts the frame.

The pending bytes lie in one piece at a read position. They move to the front of
the area only when that makes room for a chunk that would not fit otherwise. The
rest of the area holds nothing that anyone reads, so it is no part of the state. -/

namespace CabinetBus.Frame

structure Assembler where
  capacity : Nat
  /-- Where the pending bytes begin. -/
  readPos : Nat
  /-- The bytes that no frame has taken yet. -/
  pending : Bytes
  deriving DecidableEq, Repr

namespace Assembler

def defaultCapacity : Nat := 2048

def withCapacity (capacity : Nat) : Assembler := ⟨capacity, 0, []⟩

/-- The number of pending bytes. -/
def length (a : Assembler) : Nat := a.pending.length

def isEmpty (a : Assembler) : Bool := a.pending.isEmpty

/-- Where the next chunk goes. -/
def writePos (a : Assembler) : Nat := a.readPos + a.length

/-- Forgets all pending bytes. -/
def clear (a : Assembler) : Assembler := { a with readPos := 0, pending := [] }

/-! ## Taking in -/

def tailRoom (a : Assembler) : Nat := a.capacity - a.writePos

/-- The room there is once the pending bytes are moved to the front. -/
def totalRoom (a : Assembler) : Nat := a.tailRoom + a.readPos

/-- Moves the pending bytes to the front. -/
def compact (a : Assembler) : Assembler := { a with readPos := 0 }

/-- Makes room at the tail for `incoming` bytes if moving the pending bytes does it. -/
def makeRoom (a : Assembler) (incoming : Nat) : Assembler :=
  if a.tailRoom < incoming ∧ incoming ≤ a.totalRoom then a.compact else a

/-- Takes in `data` behind the pending bytes. -/
def append (a : Assembler) (data : Bytes) : Except AssemblerOverflow Assembler :=
  let roomy := a.makeRoom data.length
  if roomy.tailRoom < data.length then .error ⟨data.length, roomy.totalRoom⟩
  else .ok { roomy with pending := roomy.pending ++ data }

/-- Takes in a chunk. With nothing pending, the bytes before its first start
marker are dropped at once, and so is a chunk without one. -/
def push (a : Assembler) (chunk : Bytes) : Except AssemblerOverflow Assembler :=
  if a.isEmpty then
    match chunk.dropWhile (· != startMarker) with
    | [] => .ok a.clear
    | data => a.append data
  else a.append chunk

/-! ## Giving out -/

/-- What a pass over the pending bytes finds, by offset. -/
inductive Found where
  /-- A frame, by the offsets of its two markers. -/
  | frame (start stop : Nat)
  /-- A frame that has begun and not ended. -/
  | begun (start : Nat)
  | nothing
  deriving DecidableEq, Repr

/-- Reads on at offset `n`, with the last start marker seen and whether the byte
before was an escape marker. -/
def seek : Bytes → Nat → Option Nat → Bool → Found
  | [], _, none, _ => .nothing
  | [], _, some start, _ => .begun start
  | b :: rest, n, start, escaped =>
      if escaped then seek rest (n + 1) start false
      else if b = startMarker then seek rest (n + 1) (some n) false
      else match start with
        | none => seek rest (n + 1) none false
        | some s =>
            if b = endMarker then .frame s n
            else seek rest (n + 1) (some s) (b == escapeMarker)

/-- Gives up the first `count` pending bytes. With nothing left pending the area is
used from its front again. -/
def skip (a : Assembler) (count : Nat) : Assembler :=
  let left := a.pending.drop count
  if left.isEmpty then a.clear else { a with readPos := a.readPos + count, pending := left }

/-- Removes the next complete frame, if there is one. What can no longer belong to
a frame is dropped on the way. -/
def pop (a : Assembler) : Option Bytes × Assembler :=
  match seek a.pending 0 none false with
  | .frame start stop => (some (a.pending.slice start (stop + 1)), a.skip (stop + 1))
  | .begun start => (none, a.skip start)
  | .nothing => (none, a.clear)

/-- At most `limit` pops, the last of which finds nothing if the limit allows. -/
def popUpTo : Nat → Assembler → List Bytes × Assembler
  | 0, a => ([], a)
  | limit + 1, a =>
      match a.pop with
      | (none, rest) => ([], rest)
      | (some frame, rest) =>
          let (frames, last) := popUpTo limit rest
          (frame :: frames, last)

/-- Pops until nothing comes. Each frame takes pending bytes with it, so there are
fewer frames than pending bytes. -/
def drain (a : Assembler) : List Bytes × Assembler := popUpTo (a.length + 1) a

end Assembler

end CabinetBus.Frame
