-- SUMMARY: JSON values as documents, with members, numbers and string escapes as they are written.

/-! # JSON values

A document keeps what its text says: repeated members, the order of members, the
parts of a number, and whether a string element is a character or a numbered
16-bit unit. Units are joined to characters only when a reader asks for text, so
a document may hold a lone half of a surrogate pair where nobody reads it. -/

namespace CabinetBus

namespace Json

/-- One element of a string: a character, or a 16-bit unit given by its number. -/
inductive Glyph where
  | char (c : Char)
  | unit (code : Nat)
  deriving DecidableEq, Repr

/-- A number by its parts; an absent fraction or exponent is empty. -/
structure Number where
  negative : Bool
  whole : Nat
  fraction : List Char
  exponent : List Char
  deriving DecidableEq, Repr

end Json

inductive Json where
  | null
  | bool (b : Bool)
  | number (n : Json.Number)
  | string (glyphs : List Json.Glyph)
  | array (items : List Json)
  | object (members : List (List Json.Glyph × Json))
  deriving Repr, Inhabited

namespace Json

/-! ## Text of strings -/

def isHighUnit (code : Nat) : Bool := 0xD800 ≤ code && code ≤ 0xDBFF

def isLowUnit (code : Nat) : Bool := 0xDC00 ≤ code && code ≤ 0xDFFF

/-- The character that a high and a low unit spell together. -/
def joinUnits (high low : Nat) : Char :=
  Char.ofNat (0x10000 + (high - 0xD800) * 0x400 + (low - 0xDC00))

/-- The characters of a string; a high unit needs a low unit right after it, and
a low unit a high one before it. -/
def chars? : List Glyph → Option (List Char)
  | [] => some []
  | .char c :: rest => (chars? rest).map (c :: ·)
  | .unit code :: rest =>
      if isHighUnit code then
        match rest with
        | .unit low :: rest =>
            if isLowUnit low then (chars? rest).map (joinUnits code low :: ·) else none
        | _ => none
      else if isLowUnit code then none
      else (chars? rest).map (Char.ofNat code :: ·)

def text? (glyphs : List Glyph) : Option String := (chars? glyphs).map String.ofList

/-- The glyphs of a text, every character as itself. -/
def glyphs (text : String) : List Glyph := text.toList.map .char

def ofString (text : String) : Json := .string (glyphs text)

def ofNat (n : Nat) : Json := .number ⟨false, n, [], []⟩

/-! ## Laws -/

theorem chars?_map_char (cs : List Char) : chars? (cs.map .char) = some cs := by
  induction cs with
  | nil => rfl
  | cons c cs ih => simp [chars?, ih]

@[simp] theorem text?_glyphs (text : String) : text? (glyphs text) = some text := by
  simp [text?, glyphs, chars?_map_char]

end Json

end CabinetBus
