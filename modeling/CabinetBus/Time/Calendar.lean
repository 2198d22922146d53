-- SUMMARY: The Gregorian calendar: month lengths, dates with times, and dates from day numbers.
import CabinetBus.Text.Numeral

/-! # Calendar

The Gregorian rule is applied to all years. Days are numbered from the first of
January 1970. -/

namespace CabinetBus

namespace Calendar

def isLeapYear (year : Int) : Bool := year % 4 == 0 && (year % 100 != 0 || year % 400 == 0)

/-- The length of a month, counted from one; no other number is a month. -/
def daysInMonth (year : Int) (month : Nat) : Nat :=
  match month with
  | 1 | 3 | 5 | 7 | 8 | 10 | 12 => 31
  | 4 | 6 | 9 | 11 => 30
  | 2 => if isLeapYear year then 29 else 28
  | _ => 0

/-- The days of four centuries, after which the calendar repeats. -/
def daysPerEra : Nat := 146097

/-- The days from the first of March of year zero to the first of January 1970. -/
def epochOffset : Int := 719468

/-- Year, month and day of a day number. Years are taken to begin in March, so that a
leap day is the last day of its year. -/
def ofDayNumber (days : Int) : Int × Nat × Nat :=
  let shifted := days + epochOffset
  let era := shifted / daysPerEra
  let day := (shifted % daysPerEra).toNat
  let year := (day - day / 1460 + day / 36524 - day / 146096) / 365
  let dayOfYear := day - (365 * year + year / 4 - year / 100)
  let monthFromMarch := (5 * dayOfYear + 2) / 153
  let dayOfMonth := dayOfYear - (153 * monthFromMarch + 2) / 5 + 1
  let month := if monthFromMarch < 10 then monthFromMarch + 3 else monthFromMarch - 9
  (era * 400 + year + (if month ≤ 2 then 1 else 0), month, dayOfMonth)

end Calendar

/-! ## Dates with a time of day -/

structure DateTime where
  year : Int
  month : Nat
  day : Nat
  hour : Nat
  minute : Nat
  second : Nat
  deriving DecidableEq, Repr

namespace DateTime

/-- The six fields name a day of the calendar and a second of that day. -/
def IsValid (t : DateTime) : Prop :=
  1 ≤ t.day ∧ t.day ≤ Calendar.daysInMonth t.year t.month ∧
    t.hour < 24 ∧ t.minute < 60 ∧ t.second < 60

instance (t : DateTime) : Decidable t.IsValid := by unfold IsValid; infer_instance

def text (t : DateTime) : String :=
  Text.signedDecimal 4 t.year ++ "-" ++ Text.decimal 2 t.month ++ "-" ++ Text.decimal 2 t.day ++
    " " ++ Text.decimal 2 t.hour ++ ":" ++ Text.decimal 2 t.minute ++ ":" ++
    Text.decimal 2 t.second

end DateTime

end CabinetBus
