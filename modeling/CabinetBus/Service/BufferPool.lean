-- SUMMARY: Reusable outbound buffers of fixed size, and the pools that keep idle ones.
import CabinetBus.Bytes.Basic
import CabinetBus.Error

/-! # Buffer pool

A message is copied into a pooled buffer before it is queued. A buffer that comes
back is truncated and not cleared, and waits in the pool, oldest first, for the
next message; a pool that is full lets it go. The count of buffers in use is a
64-bit word that wraps, since a buffer may come back to another pool. -/

namespace CabinetBus

/-! ## Buffers -/

structure MessageBuffer where
  data : Bytes
  length : Nat
  deriving DecidableEq, Repr

namespace MessageBuffer

def capacity : Nat := 128

def new : MessageBuffer := ⟨Bytes.zeros capacity, 0⟩

/-- The filled bytes. -/
def content (b : MessageBuffer) : Bytes := b.data.take b.length

def isEmpty (b : MessageBuffer) : Bool := b.length == 0

/-- Replaces the content, if the payload fits. -/
def fill (b : MessageBuffer) (payload : Bytes) : Except LinkError MessageBuffer :=
  if capacity < payload.length then .error (.payloadTooLarge payload.length capacity)
  else .ok ⟨b.data.overwrite 0 payload, payload.length⟩

def truncate (b : MessageBuffer) : MessageBuffer := { b with length := 0 }

end MessageBuffer

/-! ## Pools -/

structure BufferPool where
  /-- Idle buffers, the oldest first. -/
  free : List MessageBuffer
  maxFree : Nat
  inUse : UInt64
  deriving DecidableEq, Repr

namespace BufferPool

/-- A pool that keeps at most `maxFree` idle buffers, and one at least. -/
def new (maxFree : Nat) : BufferPool := ⟨[], max 1 maxFree, 0⟩

def available (p : BufferPool) : Nat := p.free.length

/-- Takes the oldest idle buffer, or a new one. -/
def acquire (p : BufferPool) : MessageBuffer × BufferPool :=
  match p.free with
  | [] => (.new, { p with inUse := p.inUse + 1 })
  | b :: rest => (b, { p with free := rest, inUse := p.inUse + 1 })

/-- Takes a buffer back. -/
def release (p : BufferPool) (b : MessageBuffer) : BufferPool :=
  { p with
    free := if p.free.length < p.maxFree then p.free ++ [b.truncate] else p.free
    inUse := p.inUse - 1 }

/-! ### Laws -/

theorem inUse_acquire (p : BufferPool) : p.acquire.2.inUse = p.inUse + 1 := by
  unfold acquire
  split <;> rfl

theorem inUse_release (p : BufferPool) (b : MessageBuffer) :
    (p.release b).inUse = p.inUse - 1 := rfl

theorem available_acquire (p : BufferPool) : p.acquire.2.available = p.available - 1 := by
  unfold acquire available
  split <;> simp_all

/-- A pool never keeps more idle buffers than it may. -/
theorem available_release (p : BufferPool) (b : MessageBuffer) :
    (p.release b).available =
      if p.available < p.maxFree then p.available + 1 else p.available := by
  unfold release available
  split <;> simp

end BufferPool

/-! ## Several pools -/

/-- Pools, and the buffers handed out so far by order of acquisition; a buffer that
was given back is gone. -/
structure Depot where
  pools : List BufferPool
  handles : List (Option MessageBuffer)
  deriving DecidableEq, Repr

inductive DepotCall where
  | acquire (pool : Nat)
  | fill (handle : Nat) (payload : Bytes)
  | inspect (handle : Nat)
  | release (handle pool : Nat)
  deriving DecidableEq, Repr

namespace Depot

def ofMaxFree (maxFree : List Nat) : Depot := ⟨maxFree.map BufferPool.new, []⟩

/-- The buffer behind a handle, if it was not given back. -/
def buffer? (d : Depot) (handle : Nat) : Option MessageBuffer := (d.handles[handle]?).join

/-- Makes one call. Only filling can fail, and then changes nothing. A call on a pool or
a handle that is not there does nothing. -/
def call (d : Depot) : DepotCall → Except LinkError Unit × Depot
  | .acquire pool =>
      match d.pools[pool]? with
      | none => (.ok (), d)
      | some p =>
          let (b, next) := p.acquire
          (.ok (), ⟨d.pools.set pool next, d.handles ++ [some b]⟩)
  | .fill handle payload =>
      match d.buffer? handle with
      | none => (.ok (), d)
      | some b =>
          match b.fill payload with
          | .ok filled => (.ok (), { d with handles := d.handles.set handle (some filled) })
          | .error e => (.error e, d)
  | .inspect _ => (.ok (), d)
  | .release handle pool =>
      match d.buffer? handle, d.pools[pool]? with
      | some b, some p =>
          (.ok (), ⟨d.pools.set pool (p.release b), d.handles.set handle none⟩)
      | _, _ => (.ok (), d)

def calls (d : Depot) : List DepotCall → Depot
  | [] => d
  | call :: rest => (d.call call).2.calls rest

end Depot

end CabinetBus
