-- SUMMARY: A bounds-checked cursor over a byte buffer that keeps its first failure.
import CabinetBus.Error
import CabinetBus.Bytes.Word

/-! # Cursors

A cursor reads words between its read position and a limit, and writes words
from its write position on; what is written becomes readable. The first access
that does not fit is kept as the cursor's error. From then on reads give zero,
writes change nothing, and the positions stay, so a whole record can be read and
checked once at the end. -/

namespace CabinetBus

structure Cursor where
  buffer : Bytes
  readPos : Nat
  writePos : Nat
  limit : Nat
  error : Option CursorError
  deriving DecidableEq, Repr

namespace Cursor

/-- Reads the bytes of `buffer` from `start` up to `limit`, or to its end if that is nearer. -/
def reader (buffer : Bytes) (start limit : Nat) : Cursor :=
  { buffer, readPos := start, writePos := 0, limit := min limit buffer.length, error := none }

/-- Reads the whole buffer. -/
def ofBuffer (buffer : Bytes) : Cursor := reader buffer 0 buffer.length

/-- Writes the buffer from its front; nothing is readable yet. -/
def writer (buffer : Bytes) : Cursor := reader buffer 0 0

/-- The bytes left before the limit. -/
def remaining (c : Cursor) : Nat := c.limit - c.readPos

def finish (c : Cursor) : Except CursorError Unit :=
  match c.error with
  | some e => .error e
  | none => .ok ()

/-! ## Reading -/

/-- The next `needed` bytes, if they lie before the limit and nothing failed earlier. -/
def take (c : Cursor) (needed : Nat) : Option Bytes × Cursor :=
  match c.error with
  | some _ => (none, c)
  | none =>
      if c.limit < c.readPos + needed then
        (none, { c with error := some (.exhausted needed c.readPos c.limit) })
      else
        (some (c.buffer.slice c.readPos (c.readPos + needed)),
          { c with readPos := c.readPos + needed })

/-- The next word of `width` bytes, or zero once exhausted. -/
def readWord (order : ByteOrder) (width : Nat) (c : Cursor) : Nat × Cursor :=
  match c.take width with
  | (some bytes, next) => (order.value bytes, next)
  | (none, next) => (0, next)

/-! ## Writing -/

/-- Writes `data` at the write position, if it fits and nothing failed earlier. -/
def put (data : Bytes) (c : Cursor) : Cursor :=
  match c.error with
  | some _ => c
  | none =>
      let stop := c.writePos + data.length
      if c.buffer.length < stop then
        { c with error := some (.overflow data.length c.writePos c.buffer.length) }
      else
        { c with
          buffer := c.buffer.overwrite c.writePos data
          writePos := stop
          limit := max c.limit stop }

def writeWord (order : ByteOrder) (width value : Nat) (c : Cursor) : Cursor :=
  c.put (order.word width value)

/-! ## Records -/

/-- A reading of consecutive fields. -/
abbrev Fields (α : Type) : Type := StateM Cursor α

/-- One byte. -/
def byte : Fields UInt8 := do
  return UInt8.ofNat (← readWord .big 1)

/-- `count` bytes, one by one. -/
def byteList : Nat → Fields (List UInt8)
  | 0 => pure []
  | count + 1 => do
      let b ← byte
      let rest ← byteList count
      return b :: rest

/-- The record that `fields` reads from the cursor, or the first failure. -/
def record (fields : Fields α) (c : Cursor) : Except CursorError α :=
  let (value, last) := fields.run c
  match last.error with
  | some e => .error e
  | none => .ok value

/-! ## Sequences of accesses -/

inductive Access where
  | read (order : ByteOrder) (width : Nat)
  | write (order : ByteOrder) (width value : Nat)
  | writeBytes (data : Bytes)
  deriving DecidableEq, Repr

/-- Performs one access; a read answers with its value. -/
def access (c : Cursor) : Access → Option Nat × Cursor
  | .read order width =>
      let (value, next) := readWord order width c
      (some value, next)
  | .write order width value => (none, writeWord order width value c)
  | .writeBytes data => (none, c.put data)

/-- Performs accesses in order and gives the cursor after each, with the value read. -/
def accesses (c : Cursor) : List Access → List (Option Nat × Cursor)
  | [] => []
  | a :: rest =>
      let step := c.access a
      step :: step.2.accesses rest

end Cursor

end CabinetBus
