-- SUMMARY: Reading JSON text by its strict grammar.
import CabinetBus.Json.Basic
import CabinetBus.Text.Numeral

/-! # Reading JSON

Strict JSON: no comments, no trailing commas, no leading zeros, no control
characters inside strings, and nothing but blanks around the one value. Each
reader takes the text from where it stands and gives the value with the text
that is left. -/

namespace CabinetBus.Json

/-- The four characters that may stand between tokens. -/
def isBlank (c : Char) : Bool := c == ' ' || c == '\n' || c == '\t' || c == '\r'

def skipBlanks (text : List Char) : List Char := text.dropWhile isBlank

/-! ## Strings -/

/-- The unit that four hexadecimal digits number. -/
def unit? (a b c d : Char) : Option Nat := do
  let a ← Text.hexValue? a
  let b ← Text.hexValue? b
  let c ← Text.hexValue? c
  let d ← Text.hexValue? d
  return ((a * 16 + b) * 16 + c) * 16 + d

/-- The character that a one-letter escape stands for. -/
def escaped? : Char → Option Char
  | '"' => some '"'
  | '\\' => some '\\'
  | '/' => some '/'
  | 'b' => some '\x08'
  | 'f' => some '\x0c'
  | 'n' => some '\n'
  | 'r' => some '\r'
  | 't' => some '\t'
  | _ => none

/-- A string after its opening quote, up to and with its closing quote. -/
def readGlyphs : List Char → Option (List Glyph × List Char)
  | [] => none
  | '"' :: rest => some ([], rest)
  | '\\' :: rest =>
      match rest with
      | 'u' :: a :: b :: c :: d :: rest => do
          let code ← unit? a b c d
          let (later, left) ← readGlyphs rest
          return (.unit code :: later, left)
      | letter :: rest => do
          let c ← escaped? letter
          let (later, left) ← readGlyphs rest
          return (.char c :: later, left)
      | [] => none
  | c :: rest =>
      if c.toNat < 0x20 then none
      else do
        let (later, left) ← readGlyphs rest
        return (.char c :: later, left)

/-! ## Numbers -/

/-- Digits read so far: a part that is seldom touched, and a block of digits behind it
with the power of ten that the block stands for. -/
structure Digits where
  front : Nat
  block : Nat
  power : Nat

namespace Digits

/-- A block is full at eighteen digits. -/
def fullPower : Nat := 1_000_000_000_000_000_000

def value (d : Digits) : Nat := d.front * d.power + d.block

/-- Reads one more digit. A full block joins the front, so that long numbers grow a
block at a time. -/
def push (d : Digits) (digit : Nat) : Digits :=
  if d.power < fullPower then ⟨d.front, 10 * d.block + digit, 10 * d.power⟩
  else ⟨d.value, digit, 10⟩

end Digits

def digitValue (c : Char) : Nat := c.toNat - '0'.toNat

/-- The value of a string of decimal digits. -/
def digitsValue (digits : List Char) : Nat :=
  (digits.foldl (fun d c => d.push (digitValue c)) (⟨0, 0, 1⟩ : Digits)).value

/-- The digits in front, of which there must be one at least. -/
def readDigits (text : List Char) : Option (List Char × List Char) :=
  match text.takeWhile Char.isDigit with
  | [] => none
  | digits => some (digits, text.dropWhile Char.isDigit)

/-- Digits without a superfluous leading zero. -/
def readWhole (text : List Char) : Option (Nat × List Char) :=
  match readDigits text with
  | none => none
  | some ('0' :: _ :: _, _) => none
  | some (digits, rest) => some (digitsValue digits, rest)

def readFraction : List Char → Option (List Char × List Char)
  | '.' :: rest => readDigits rest
  | text => some ([], text)

def readExponentDigits (sign : List Char) (text : List Char) : Option (List Char × List Char) :=
  (readDigits text).map fun (digits, rest) => (sign ++ digits, rest)

def readExponent : List Char → Option (List Char × List Char)
  | c :: rest =>
      if c = 'e' ∨ c = 'E' then
        match rest with
        | '+' :: rest => readExponentDigits ['+'] rest
        | '-' :: rest => readExponentDigits ['-'] rest
        | rest => readExponentDigits [] rest
      else some ([], c :: rest)
  | [] => some ([], [])

def readUnsigned (negative : Bool) (text : List Char) : Option (Number × List Char) := do
  let (whole, rest) ← readWhole text
  let (fraction, rest) ← readFraction rest
  let (exponent, rest) ← readExponent rest
  return (⟨negative, whole, fraction, exponent⟩, rest)

def readNumber : List Char → Option (Number × List Char)
  | '-' :: rest => readUnsigned true rest
  | text => readUnsigned false text

/-! ## Values -/

mutual

/-- A value, with the blanks before it. -/
def readValue : Nat → List Char → Option (Json × List Char)
  | 0, _ => none
  | fuel + 1, text =>
      match skipBlanks text with
      | '"' :: rest => (readGlyphs rest).map fun (glyphs, left) => (.string glyphs, left)
      | '[' :: rest =>
          match skipBlanks rest with
          | ']' :: left => some (.array [], left)
          | _ => (readItems fuel rest).map fun (items, left) => (.array items, left)
      | '{' :: rest =>
          match skipBlanks rest with
          | '}' :: left => some (.object [], left)
          | _ => (readMembers fuel rest).map fun (members, left) => (.object members, left)
      | 'n' :: 'u' :: 'l' :: 'l' :: left => some (.null, left)
      | 't' :: 'r' :: 'u' :: 'e' :: left => some (.bool true, left)
      | 'f' :: 'a' :: 'l' :: 's' :: 'e' :: left => some (.bool false, left)
      | rest => (readNumber rest).map fun (n, left) => (.number n, left)

/-- One or more values, up to and with the closing bracket. -/
def readItems : Nat → List Char → Option (List Json × List Char)
  | 0, _ => none
  | fuel + 1, text => do
      let (item, rest) ← readValue fuel text
      match skipBlanks rest with
      | ',' :: rest =>
          let (later, left) ← readItems fuel rest
          return (item :: later, left)
      | ']' :: left => return ([item], left)
      | _ => none

/-- One or more members, up to and with the closing brace. -/
def readMembers : Nat → List Char → Option (List (List Glyph × Json) × List Char)
  | 0, _ => none
  | fuel + 1, text =>
      match skipBlanks text with
      | '"' :: rest => do
          let (key, rest) ← readGlyphs rest
          match skipBlanks rest with
          | ':' :: rest =>
              let (value, rest) ← readValue fuel rest
              match skipBlanks rest with
              | ',' :: rest =>
                  let (later, left) ← readMembers fuel rest
                  return ((key, value) :: later, left)
              | '}' :: left => return ([(key, value)], left)
              | _ => none
          | _ => none
      | _ => none

end

/-- The value that a whole text spells. A value and the list that opens it may start
at the same character, so two steps per character are enough. -/
def parse (text : String) : Option Json :=
  match readValue (2 * text.toList.length + 2) text.toList with
  | some (value, left) => if (skipBlanks left).isEmpty then some value else none
  | none => none

/-! ## Laws -/

theorem Digits.value_push (d : Digits) (digit : Nat) :
    (d.push digit).value = 10 * d.value + digit := by
  unfold push value
  split
  · simp only [Nat.mul_add, Nat.mul_left_comm, Nat.add_assoc]
  · rw [Nat.mul_comm]

/-- Each digit counts ten times what those behind it do. -/
theorem digitsValue_eq (digits : List Char) :
    digitsValue digits = digits.foldl (fun n c => 10 * n + digitValue c) 0 := by
  suffices h : ∀ d : Digits, (digits.foldl (fun d c => d.push (digitValue c)) d).value =
      digits.foldl (fun n c => 10 * n + digitValue c) d.value from h ⟨0, 0, 1⟩
  induction digits with
  | nil => exact fun _ => rfl
  | cons c rest ih =>
      intro d
      rw [List.foldl_cons, List.foldl_cons, ih, Digits.value_push]

end CabinetBus.Json
