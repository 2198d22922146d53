-- SUMMARY: The frames of a byte stream, found in one pass that looks at each byte once.
import CabinetBus.Frame.Marker

/-! # Frame scanner

The language of frames in a stream, told byte by byte and without any buffer.
Splitting a stream changes nothing: scanning the parts one after another finds
the frames of the whole. -/

namespace CabinetBus.Frame

inductive Scanner where
  | idle
  /-- Inside a frame: its bytes so far, and whether the last one was an escape marker. -/
  | inside (taken : Bytes) (escaped : Bool)
  deriving DecidableEq, Repr

namespace Scanner

/-- Takes one byte, and gives the frame that it closes. -/
def step : Scanner → UInt8 → Scanner × Option Bytes
  | idle, b => if b = startMarker then (inside [b] false, none) else (idle, none)
  | inside taken true, b => (inside (taken ++ [b]) false, none)
  | inside taken false, b =>
      if b = startMarker then (inside [b] false, none)
      else if b = endMarker then (idle, some (taken ++ [b]))
      else (inside (taken ++ [b]) (b == escapeMarker), none)

/-- Takes a byte string, and gives the frames that it closes, in order. -/
def run (s : Scanner) : Bytes → Scanner × List Bytes
  | [] => (s, [])
  | b :: rest =>
      let (next, closed) := s.step b
      let (last, frames) := run next rest
      (last, closed.toList ++ frames)

/-- The bytes of the frame that is open. -/
def taken : Scanner → Bytes
  | idle => []
  | inside bytes _ => bytes

/-! ## Laws -/

@[simp] theorem run_nil (s : Scanner) : s.run [] = (s, []) := rfl

theorem run_cons (s : Scanner) (b : UInt8) (rest : Bytes) :
    s.run (b :: rest) =
      (((s.step b).1.run rest).1, (s.step b).2.toList ++ ((s.step b).1.run rest).2) := rfl

theorem run_append (s : Scanner) (left right : Bytes) :
    s.run (left ++ right) =
      (((s.run left).1.run right).1, (s.run left).2 ++ ((s.run left).1.run right).2) := by
  induction left generalizing s with
  | nil => rfl
  | cons b left ih => simp [run_cons, ih, List.append_assoc]

end Scanner

end CabinetBus.Frame
