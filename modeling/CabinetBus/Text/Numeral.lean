-- SUMMARY: Numbers as text with a least width, and the value of a hexadecimal digit.

/-! # Numerals

Digits are lowercase. A numeral shorter than its width is filled with zeros on
the left; a longer one is kept whole. -/

namespace CabinetBus.Text

/-- The digits of `n`, filled with zeros to `width`. -/
def digits (base width n : Nat) : List Char :=
  let written := Nat.toDigits base n
  List.replicate (width - written.length) '0' ++ written

def hexadecimal (width n : Nat) : String := String.ofList (digits 16 width n)

def binary (width n : Nat) : String := String.ofList (digits 2 width n)

def decimal (width n : Nat) : String := String.ofList (digits 10 width n)

/-- A signed number, with the zeros between sign and digits; the sign counts towards the width. -/
def signedDecimal (width : Nat) : Int → String
  | .ofNat n => decimal width n
  | .negSucc n => "-" ++ decimal (width - 1) (n + 1)

/-- The value of one hexadecimal digit of either case. -/
def hexValue? (c : Char) : Option Nat :=
  if '0' ≤ c ∧ c ≤ '9' then some (c.toNat - '0'.toNat)
  else if 'a' ≤ c ∧ c ≤ 'f' then some (c.toNat - 'a'.toNat + 10)
  else if 'A' ≤ c ∧ c ≤ 'F' then some (c.toNat - 'A'.toNat + 10)
  else none

end CabinetBus.Text
