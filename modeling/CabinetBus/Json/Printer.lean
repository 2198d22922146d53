-- SUMMARY: Writing JSON values, compact or indented by two blanks.
import CabinetBus.Json.Basic
import CabinetBus.Text.Numeral

/-! # Writing JSON

Strings escape the quote, the backslash and the control characters, and nothing
else. The indented form puts every item and member on a line of its own, two
blanks deeper than its container, and ends without a line break; an empty
container stays on its line. -/

namespace CabinetBus.Json

/-! ## Strings and numbers -/

def hexUnit (code : Nat) : List Char := ['\\', 'u'] ++ Text.digits 16 4 code

def printGlyph : Glyph → List Char
  | .unit code => hexUnit code
  | .char c =>
      match c with
      | '"' => ['\\', '"']
      | '\\' => ['\\', '\\']
      | '\x08' => ['\\', 'b']
      | '\t' => ['\\', 't']
      | '\n' => ['\\', 'n']
      | '\x0c' => ['\\', 'f']
      | '\r' => ['\\', 'r']
      | c => if c.toNat < 0x20 then hexUnit c.toNat else [c]

def printString (glyphs : List Glyph) : List Char :=
  '"' :: glyphs.flatMap printGlyph ++ ['"']

def printNumber (n : Number) : List Char :=
  (if n.negative then ['-'] else []) ++ Text.digits 10 1 n.whole ++
    (if n.fraction.isEmpty then [] else '.' :: n.fraction) ++
    (if n.exponent.isEmpty then [] else 'e' :: n.exponent)

def printBool (b : Bool) : List Char := if b then "true".toList else "false".toList

/-! ## Compact form -/

mutual

def printCompact : Json → List Char
  | .null => "null".toList
  | .bool b => printBool b
  | .number n => printNumber n
  | .string glyphs => printString glyphs
  | .array items => '[' :: printItems items ++ [']']
  | .object members => '\x7b' :: printMembers members ++ ['\x7d']

def printItems : List Json → List Char
  | [] => []
  | [item] => printCompact item
  | item :: rest => printCompact item ++ ',' :: printItems rest

def printMembers : List (List Glyph × Json) → List Char
  | [] => []
  | [(key, value)] => printString key ++ ':' :: printCompact value
  | (key, value) :: rest =>
      printString key ++ ':' :: printCompact value ++ ',' :: printMembers rest

end

/-! ## Indented form -/

/-- A line break and the blanks of `depth` levels. -/
def newline (depth : Nat) : List Char := '\n' :: List.replicate (2 * depth) ' '

mutual

def printIndented (depth : Nat) : Json → List Char
  | .null => "null".toList
  | .bool b => printBool b
  | .number n => printNumber n
  | .string glyphs => printString glyphs
  | .array [] => ['[', ']']
  | .array items => '[' :: printItemLines (depth + 1) items ++ newline depth ++ [']']
  | .object [] => ['\x7b', '\x7d']
  | .object members =>
      '\x7b' :: printMemberLines (depth + 1) members ++ newline depth ++ ['\x7d']

def printItemLines (depth : Nat) : List Json → List Char
  | [] => []
  | [item] => newline depth ++ printIndented depth item
  | item :: rest => newline depth ++ printIndented depth item ++ ',' :: printItemLines depth rest

def printMemberLines (depth : Nat) : List (List Glyph × Json) → List Char
  | [] => []
  | [(key, value)] => newline depth ++ printString key ++ [':', ' '] ++ printIndented depth value
  | (key, value) :: rest =>
      newline depth ++ printString key ++ [':', ' '] ++ printIndented depth value ++
        ',' :: printMemberLines depth rest

end

def compact (value : Json) : String := String.ofList (printCompact value)

def indented (value : Json) : String := String.ofList (printIndented 0 value)

end CabinetBus.Json
