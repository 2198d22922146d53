-- SUMMARY: The three marker bytes of a frame and the escaping that keeps them out of its body.
import CabinetBus.Bytes.Basic

/-! # Markers and escapes

A frame opens with a start marker and closes with an end marker. Between them
each marker byte is sent as a pair: the escape marker, then the byte with one
bit flipped. Escaping never writes a start or end marker, and unescaping undoes
it. -/

namespace CabinetBus.Frame

def startMarker : UInt8 := 0x02

def endMarker : UInt8 := 0x03

def escapeMarker : UInt8 := 0x7D

/-- The bit that an escaped byte is sent with flipped. -/
def escapeMask : UInt8 := 0x20

/-- The bytes that may not stand for themselves inside a frame. -/
def isDelimiter (b : UInt8) : Bool := b == startMarker || b == endMarker || b == escapeMarker

def escapeByte (b : UInt8) : Bytes :=
  if isDelimiter b then [escapeMarker, b ^^^ escapeMask] else [b]

def escape (body : Bytes) : Bytes := body.flatMap escapeByte

/-- One left-to-right pass: an escape marker drops out and flips the bit of the
next byte, whatever that is; an escape marker with no byte after it drops out. -/
def unescape : Bytes → Bytes
  | [] => []
  | [b] => if b = escapeMarker then [] else [b]
  | b :: c :: rest =>
      if b = escapeMarker then (c ^^^ escapeMask) :: unescape rest
      else b :: unescape (c :: rest)

/-! ## Laws -/

@[simp] theorem escape_nil : escape [] = [] := rfl

@[simp] theorem escape_cons (b : UInt8) (rest : Bytes) :
    escape (b :: rest) = escapeByte b ++ escape rest := rfl

theorem escape_append (left right : Bytes) :
    escape (left ++ right) = escape left ++ escape right := by
  simp [escape]

theorem length_escapeByte_pos (b : UInt8) : 0 < (escapeByte b).length := by
  unfold escapeByte
  split <;> simp

/-- Escaping never shortens. -/
theorem length_le_length_escape (body : Bytes) : body.length ≤ (escape body).length := by
  induction body with
  | nil => simp
  | cons b rest ih =>
      have := length_escapeByte_pos b
      rw [escape_cons, List.length_append, List.length_cons]
      omega

theorem xor_escapeMask_twice (b : UInt8) : (b ^^^ escapeMask) ^^^ escapeMask = b := by
  rw [UInt8.xor_assoc, UInt8.xor_self, UInt8.xor_zero]

/-- Unescaping an escaped byte gives it back, whatever follows. -/
theorem unescape_escapeByte_append (b : UInt8) (rest : Bytes) :
    unescape (escapeByte b ++ rest) = b :: unescape rest := by
  unfold escapeByte
  split
  · simp only [List.cons_append, List.nil_append, unescape, if_true, xor_escapeMask_twice]
  · rename_i hb
    have hne : b ≠ escapeMarker := by
      intro heq
      simp [isDelimiter, heq] at hb
    cases rest with
    | nil => simp [unescape, hne]
    | cons c rest => simp [unescape, hne]

theorem unescape_escape_append (body rest : Bytes) :
    unescape (escape body ++ rest) = body ++ unescape rest := by
  induction body with
  | nil => simp
  | cons b body ih => simp [List.append_assoc, unescape_escapeByte_append, ih]

theorem unescape_escape (body : Bytes) : unescape (escape body) = body := by
  simpa [unescape] using unescape_escape_append body []

end CabinetBus.Frame
