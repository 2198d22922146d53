-- SUMMARY: Clicks at a fixed period, with or without a rhythm that survives overruns.

/-! # Metronome

Instants are nanoseconds since an arbitrary origin. A caller that comes before the
beat waits for it. One that comes too late is served at once and starts a new
rhythm, unless the metronome is real: then it keeps the rhythm and waits for the
next beat. -/

namespace CabinetBus

structure Metronome where
  /-- The nanoseconds from one beat to the next. -/
  cycle : Nat
  isReal : Bool
  /-- The latest beat that was promised, or the start. -/
  beat : Nat
  /-- The clicks since the start, as a 64-bit word counts them. -/
  clicks : Nat
  deriving DecidableEq, Repr

namespace Metronome

def new (cycle : Nat) (isReal : Bool) (now : Nat) : Metronome := ⟨cycle, isReal, now, 0⟩

/-- Restarts the rhythm. -/
def start (m : Metronome) (now : Nat) : Metronome := { m with beat := now, clicks := 0 }

/-- The beats from the promised one to the first after an overrun. The count is a
32-bit word. -/
def missedBeats (m : Metronome) (elapsed : Nat) : UInt32 := UInt32.ofNat (elapsed / m.cycle) + 1

/-- Counts a click and says how long to wait for the next beat. -/
def next (m : Metronome) (now : Nat) : Nat × Metronome :=
  let elapsed := now - m.beat
  let clicked := { m with clicks := (m.clicks + 1) % UInt64.size }
  if elapsed < m.cycle then
    (m.cycle - elapsed, { clicked with beat := m.beat + m.cycle })
  else if m.isReal && m.cycle != 0 then
    let beat := m.beat + m.cycle * (m.missedBeats elapsed).toNat
    (beat - now, { clicked with beat })
  else (0, { clicked with beat := now })

/-- The waits promised to calls at the given instants. -/
def waits (m : Metronome) : List Nat → List Nat × Metronome
  | [] => ([], m)
  | now :: later =>
      let (wait, m') := m.next now
      let (rest, last) := m'.waits later
      (wait :: rest, last)

end Metronome

end CabinetBus
