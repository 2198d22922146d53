-- SUMMARY: Instants in universal time, their order and their text.
import CabinetBus.Time.Calendar

/-! # Timestamps

An instant is a count of seconds since the first of January 1970 and a number of
nanoseconds. A leap second is the second before it with a billion nanoseconds or
more. -/

namespace CabinetBus

structure Timestamp where
  seconds : Int
  nanos : Nat
  deriving DecidableEq, Repr

namespace Timestamp

def nanosPerSecond : Nat := 1000000000

def secondsPerDay : Nat := 86400

def before (a b : Timestamp) : Bool :=
  a.seconds < b.seconds || (a.seconds == b.seconds && a.nanos < b.nanos)

/-- A year of four digits stands alone; any other carries its sign. -/
def yearText (year : Int) : String :=
  match year with
  | .ofNat n => if n ≤ 9999 then Text.decimal 4 n else "+" ++ Text.decimal 4 n
  | .negSucc n => "-" ++ Text.decimal 4 (n + 1)

/-- The fewest of 0, 3, 6 and 9 digits that are exact. -/
def fractionText (nanos : Nat) : String :=
  if nanos = 0 then ""
  else if nanos % 1000000 = 0 then "." ++ Text.decimal 3 (nanos / 1000000)
  else if nanos % 1000 = 0 then "." ++ Text.decimal 6 (nanos / 1000)
  else "." ++ Text.decimal 9 nanos

def text (t : Timestamp) : String :=
  let (year, month, day) := Calendar.ofDayNumber (t.seconds / secondsPerDay)
  let inDay := (t.seconds % secondsPerDay).toNat
  let second := inDay % 60 + t.nanos / nanosPerSecond
  yearText year ++ "-" ++ Text.decimal 2 month ++ "-" ++ Text.decimal 2 day ++ "T" ++
    Text.decimal 2 (inDay / 3600) ++ ":" ++ Text.decimal 2 (inDay / 60 % 60) ++ ":" ++
    Text.decimal 2 second ++ fractionText (t.nanos % nanosPerSecond) ++ "Z"

end Timestamp

end CabinetBus
