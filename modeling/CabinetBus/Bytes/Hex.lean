-- SUMMARY: Bytes written as hexadecimal text, and the decorated hexadecimal that operators type.
import CabinetBus.Bytes.Basic
import CabinetBus.Text.Blank
import CabinetBus.Text.Numeral

/-! # Hexadecimal text of byte strings

Written text has two lowercase digits per byte. Read text may be surrounded by
blanks, may open with `0x` or `0X`, and may use either case. A pair may also be
a plus sign and one digit, as in a signed numeral. -/

namespace CabinetBus.Bytes

/-! ## Writing -/

def hexPair (b : UInt8) : List Char :=
  [Nat.digitChar (b.toNat / 16), Nat.digitChar (b.toNat % 16)]

def hexDigits (bytes : Bytes) : List Char := bytes.flatMap hexPair

def toHex (bytes : Bytes) : String := String.ofList (hexDigits bytes)

/-! ## Reading -/

/-- The byte that a pair of characters spells: two digits, or a plus sign and one digit. -/
def pairValue? (high low : Char) : Option UInt8 :=
  if high = '+' then (Text.hexValue? low).map UInt8.ofNat
  else do
    let h ← Text.hexValue? high
    let l ← Text.hexValue? low
    return UInt8.ofNat (16 * h + l)

def ofHexDigits? : List Char → Option Bytes
  | [] => some []
  | [_] => none
  | high :: low :: rest => do
      let b ← pairValue? high low
      let bs ← ofHexDigits? rest
      return b :: bs

/-- The text after one opening `0x` or `0X`, if there is one. -/
def dropRadix : List Char → List Char
  | '0' :: 'x' :: rest => rest
  | '0' :: 'X' :: rest => rest
  | text => text

def ofHex? (text : String) : Option Bytes :=
  ofHexDigits? (dropRadix (Text.trim text.toList))

end CabinetBus.Bytes
