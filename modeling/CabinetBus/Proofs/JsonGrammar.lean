-- SUMMARY: The grammar of JSON texts, and the reader that takes every one of them for its document.
import CabinetBus.Json.Reader
import CabinetBus.Proofs.Numerals

/-!
# Grammar of JSON texts

A document has many texts. White space may stand around every value and every name; a character
of a string may stand for itself, behind a backslash as its letter, or as the number of its units;
hexadecimal digits and the mark of an exponent may have either case. The grammar says which texts
a document has, and not how they are read.

The reader takes every text of a document for that document. It reads up to the end of the text and
no further, so that a value which nobody looks at is passed over whole, however deep it is.
-/

namespace CabinetBus

namespace Json

/-! ## White space -/

/-- White space between tokens. -/
def IsSpace (text : List Char) : Prop := ∀ c ∈ text, c ∈ [' ', '\n', '\t', '\r']

theorem isSpace_nil : IsSpace [] := List.forall_mem_nil _

theorem isSpace_blank : IsSpace [' '] := by simp [IsSpace]

theorem skipBlanks_append {space : List Char} (h : IsSpace space) (text : List Char) :
    skipBlanks (space ++ text) = skipBlanks text := by
  refine List.dropWhile_append_of_pos fun c hc => ?_
  have hall : ∀ c ∈ [' ', '\n', '\t', '\r'], isBlank c := by simp [isBlank]
  exact hall c (h c hc)

/-! ## Strings -/

/-- The letters that stand for a character behind a backslash, with that character. -/
def letterEscapes : List (Char × Char) :=
  [('"', '"'), ('\\', '\\'), ('/', '/'), ('b', '\x08'), ('f', '\x0c'), ('n', '\n'), ('r', '\r'),
   ('t', '\t')]

/-- The texts of one element of a string. -/
inductive Glyph.HasText : Glyph → List Char → Prop
  | plain {c : Char} (hcontrol : ¬ c.toNat < 0x20) (hquote : c ≠ '"') (hslash : c ≠ '\\') :
      HasText (.char c) [c]
  | letter {letter c : Char} (h : (letter, c) ∈ letterEscapes) : HasText (.char c) ['\\', letter]
  /-- Four hexadecimal digits, of either case. -/
  | unit {code : Nat} {digits : List Char} (hcode : code < 0x10000)
      (h : digits.map Char.toLower = Text.digits 16 4 code) :
      HasText (.unit code) ('\\' :: 'u' :: digits)

/-- The texts of the elements of a string, one after another. -/
inductive GlyphsHaveText : List Glyph → List Char → Prop
  | nil : GlyphsHaveText [] []
  | cons {g : Glyph} {glyphs : List Glyph} {text later : List Char} (h : g.HasText text)
      (hlater : GlyphsHaveText glyphs later) : GlyphsHaveText (g :: glyphs) (text ++ later)

/-- The texts of a string, with its quotes. -/
def StringHasText (glyphs : List Glyph) (text : List Char) : Prop :=
  ∃ inner, GlyphsHaveText glyphs inner ∧ text = '"' :: inner ++ ['"']

theorem unit?_of_digits {code : Nat} {digits : List Char} (hcode : code < 0x10000)
    (h : digits.map Char.toLower = Text.digits 16 4 code) :
    ∃ a b c d, digits = [a, b, c, d] ∧ unit? a b c d = some code := by
  rw [Text.digits_four hcode] at h
  obtain ⟨a, rest, rfl, ha, h⟩ := List.map_eq_cons_iff.mp h
  obtain ⟨b, rest, rfl, hb, h⟩ := List.map_eq_cons_iff.mp h
  obtain ⟨c, rest, rfl, hc, h⟩ := List.map_eq_cons_iff.mp h
  obtain ⟨d, rest, rfl, hd, h⟩ := List.map_eq_cons_iff.mp h
  obtain rfl := List.map_eq_nil_iff.mp h
  have hdigit {digit : Char} {n : Nat} (hlower : digit.toLower = n.digitChar) (hn : n < 16) :
      Text.hexValue? digit = some n := by
    rw [← Text.hexValue?_toLower, hlower, Text.hexValue?_digitChar hn]
  have hvalue : ((code / 16 / 16 / 16 * 16 + code / 16 / 16 % 16) * 16 + code / 16 % 16) * 16 +
      code % 16 = code := by omega
  refine ⟨a, b, c, d, rfl, ?_⟩
  simp only [unit?, hdigit ha (by omega), hdigit hb (by omega), hdigit hc (by omega),
    hdigit hd (by omega)]
  exact congrArg some hvalue

theorem readGlyphs_escape {letter c : Char} (hletter : letter ≠ 'u')
    (h : escaped? letter = some c) (text : List Char) :
    readGlyphs ('\\' :: letter :: text) =
      (readGlyphs text).map fun (later, left) => (.char c :: later, left) := by
  rw [readGlyphs.eq_4 _ _ fun _ _ _ _ _ hu _ => hletter hu, h]
  cases readGlyphs text <;> rfl

theorem readGlyphs_plain {c : Char} (hquote : c ≠ '"') (hslash : c ≠ '\\')
    (hcontrol : ¬ c.toNat < 0x20) (text : List Char) :
    readGlyphs (c :: text) =
      (readGlyphs text).map fun (later, left) => (.char c :: later, left) := by
  rw [readGlyphs.eq_6 _ _ hquote hslash, if_neg hcontrol]
  cases readGlyphs text <;> rfl

theorem readGlyphs_of_hasText {g : Glyph} {text : List Char} (h : g.HasText text)
    (rest : List Char) :
    readGlyphs (text ++ rest) = (readGlyphs rest).map fun (later, left) => (g :: later, left) := by
  cases h with
  | plain hcontrol hquote hslash => exact readGlyphs_plain hquote hslash hcontrol rest
  | @letter letter c h =>
      have hall : ∀ pair ∈ letterEscapes, pair.1 ≠ 'u' ∧ escaped? pair.1 = some pair.2 := by decide
      obtain ⟨hletter, hescaped⟩ := hall _ h
      exact readGlyphs_escape hletter hescaped rest
  | unit hcode h =>
      obtain ⟨a, b, c, d, rfl, hunit⟩ := unit?_of_digits hcode h
      simp only [List.cons_append, List.nil_append, readGlyphs, hunit]
      cases readGlyphs rest <;> rfl

/-- A string is read up to its closing quote. -/
theorem readGlyphs_of_haveText {glyphs : List Glyph} {inner : List Char}
    (h : GlyphsHaveText glyphs inner) (rest : List Char) :
    readGlyphs (inner ++ '"' :: rest) = some (glyphs, rest) := by
  induction h with
  | nil => simp [readGlyphs]
  | cons h _ ih =>
      rw [List.append_assoc, readGlyphs_of_hasText h, ih]
      rfl

/-! ## Numbers -/

/-- An exponent without its mark: digits, with or without a sign. -/
def IsExponent (exponent : List Char) : Prop :=
  ∃ sign digits, exponent = sign ++ digits ∧ (sign = [] ∨ sign = ['+'] ∨ sign = ['-']) ∧
    digits ≠ [] ∧ ∀ c ∈ digits, c.isDigit

/-- The parts behind the whole digits are what may stand there. -/
structure Number.IsWritten (n : Number) : Prop where
  fraction : ∀ c ∈ n.fraction, c.isDigit
  exponent : n.exponent = [] ∨ IsExponent n.exponent

/-- A part of a number behind its mark, or nothing. -/
def marked (mark : Char) (part : List Char) : List Char :=
  if part.isEmpty then [] else mark :: part

/-- The texts of a number. The whole digits have no superfluous leading zero. -/
def Number.HasText (n : Number) (text : List Char) : Prop :=
  n.IsWritten ∧ ∃ mark ∈ ['e', 'E'],
    text = (if n.negative then ['-'] else []) ++
      (Nat.toDigits 10 n.whole ++ (marked '.' n.fraction ++ marked mark n.exponent))

/-- Nothing in front of the text goes on with a number. -/
def EndsNumber (text : List Char) : Prop :=
  ∀ c ∈ text.head?, c.isDigit = false ∧ c ≠ '.' ∧ c ≠ 'e' ∧ c ≠ 'E'

/-- What holds of a mark and of what follows holds behind a part that may be empty. -/
theorem head_marked {p : Char → Prop} {mark : Char} {part text : List Char} (hmark : p mark)
    (htext : ∀ c ∈ text.head?, p c) : ∀ c ∈ (marked mark part ++ text).head?, p c := by
  rw [marked]
  split
  · exact htext
  · rintro c ⟨⟩
    exact hmark

theorem readDigits_append {digits text : List Char} (hne : digits ≠ [])
    (hdigits : ∀ c ∈ digits, c.isDigit) (htext : ∀ c ∈ text.head?, c.isDigit = false) :
    readDigits (digits ++ text) = some (digits, text) := by
  have hstop : text.takeWhile Char.isDigit = [] ∧ text.dropWhile Char.isDigit = text := by
    cases text with
    | nil => exact ⟨rfl, rfl⟩
    | cons c rest =>
        have hc : ¬ c.isDigit := Bool.not_eq_true _ ▸ htext c rfl
        exact ⟨List.takeWhile_cons_of_neg hc, List.dropWhile_cons_of_neg hc⟩
  obtain ⟨first, rest, rfl⟩ := List.exists_cons_of_ne_nil hne
  rw [readDigits, List.takeWhile_append_of_pos hdigits, List.dropWhile_append_of_pos hdigits,
    hstop.1, hstop.2, List.append_nil]

theorem readWhole_toDigits (n : Nat) {text : List Char}
    (htext : ∀ c ∈ text.head?, c.isDigit = false) :
    readWhole (Nat.toDigits 10 n ++ text) = some (n, text) := by
  have hdigits : ∀ c ∈ Nat.toDigits 10 n, c.isDigit := fun c hc =>
    Nat.isDigit_of_mem_toDigits (by decide) (by decide) hc
  have hvalue : digitsValue (Nat.toDigits 10 n) = n := by
    have h := Nat.ofDigitChars_ten_toDigits (n := n)
    rw [Nat.ofDigitChars_eq_foldl] at h
    rw [digitsValue_eq]
    exact h
  have hread : readDigits (Nat.toDigits 10 n ++ text) = some (Nat.toDigits 10 n, text) :=
    readDigits_append Nat.toDigits_ne_nil hdigits htext
  rw [readWhole, hread]
  split
  · rename_i h
    cases h
  · rename_i second later left h
    have hzero : Nat.toDigits 10 n = '0' :: second :: later :=
      congrArg Prod.fst (Option.some.inj h)
    cases Text.eq_nil_of_toDigits hzero
  · rename_i h
    cases h
    rw [hvalue]

theorem readFraction_marked {fraction text : List Char} (hdigits : ∀ c ∈ fraction, c.isDigit)
    (htext : ∀ c ∈ text.head?, c.isDigit = false ∧ c ≠ '.') :
    readFraction (marked '.' fraction ++ text) = some (fraction, text) := by
  cases fraction with
  | nil =>
      have hdot : ∀ rest, text = '.' :: rest → False := by
        rintro rest rfl
        exact (htext '.' rfl).2 rfl
      exact readFraction.eq_2 text hdot
  | cons c rest =>
      exact readDigits_append (List.cons_ne_nil c rest) hdigits fun c hc => (htext c hc).1

theorem readExponent_marked {mark : Char} {exponent text : List Char} (hmark : mark ∈ ['e', 'E'])
    (h : exponent = [] ∨ IsExponent exponent) (htext : EndsNumber text) :
    readExponent (marked mark exponent ++ text) = some (exponent, text) := by
  rcases h with rfl | ⟨sign, digits, rfl, hsign, hne, hdigits⟩
  · cases text with
    | nil => rfl
    | cons c rest =>
        obtain ⟨_, _, he, hE⟩ := htext c rfl
        exact if_neg (not_or.mpr ⟨he, hE⟩)
  · have hread : readExponentDigits sign (digits ++ text) = some (sign ++ digits, text) := by
      rw [readExponentDigits, readDigits_append hne hdigits fun c hc => (htext c hc).1]
      rfl
    obtain ⟨first, rest, rfl⟩ := List.exists_cons_of_ne_nil hne
    have hfirst : first.isDigit := hdigits first List.mem_cons_self
    have hmark : mark = 'e' ∨ mark = 'E' := by simpa using hmark
    rcases hsign with rfl | rfl | rfl
    · have hplus : ∀ later, first :: rest ++ text = '+' :: later → False := by
        rintro later h
        cases h
        cases hfirst
      have hminus : ∀ later, first :: rest ++ text = '-' :: later → False := by
        rintro later h
        cases h
        cases hfirst
      exact ((readExponent.eq_3 mark _ hplus hminus).trans (if_pos hmark)).trans hread
    · exact (if_pos hmark).trans hread
    · exact (if_pos hmark).trans hread

theorem readUnsigned_marked {n : Number} {mark : Char} (h : n.IsWritten)
    (hmark : mark ∈ ['e', 'E']) {text : List Char} (htext : EndsNumber text) (negative : Bool) :
    readUnsigned negative (Nat.toDigits 10 n.whole ++
      (marked '.' n.fraction ++ (marked mark n.exponent ++ text))) =
      some ({ n with negative }, text) := by
  have hmarks : ∀ mark ∈ ['e', 'E'], mark.isDigit = false ∧ mark ≠ '.' := by simp
  have hexponent : ∀ c ∈ (marked mark n.exponent ++ text).head?, c.isDigit = false ∧ c ≠ '.' :=
    head_marked (hmarks mark hmark) fun c hc => ⟨(htext c hc).1, (htext c hc).2.1⟩
  have hfraction : ∀ c ∈ (marked '.' n.fraction ++ (marked mark n.exponent ++ text)).head?,
      c.isDigit = false :=
    head_marked (by decide) fun c hc => (hexponent c hc).1
  rw [readUnsigned, readWhole_toDigits n.whole hfraction]
  dsimp only [Option.bind_eq_bind, Option.bind_some]
  rw [readFraction_marked h.fraction hexponent]
  dsimp only [Option.bind_some]
  rw [readExponent_marked hmark h.exponent htext]
  rfl

/-- A number is read in each of its texts, sign and all. -/
theorem readNumber_of_hasText {n : Number} {text rest : List Char} (h : n.HasText text)
    (hrest : EndsNumber rest) : readNumber (text ++ rest) = some (n, rest) := by
  obtain ⟨hn, mark, hmark, rfl⟩ := h
  have hread := readUnsigned_marked hn hmark hrest n.negative
  rw [List.append_assoc, List.append_assoc, List.append_assoc]
  split
  case isTrue hnegative =>
    rw [hnegative] at hread
    exact hread.trans (by rw [← hnegative])
  case isFalse hnegative =>
    rw [Bool.eq_false_iff.mpr hnegative] at hread
    have hminus : ∀ left, Nat.toDigits 10 n.whole ++
        (marked '.' n.fraction ++ (marked mark n.exponent ++ rest)) = '-' :: left → False := by
      intro left hleft
      obtain ⟨first, later, hwhole, hdigit⟩ := Text.exists_toDigits_eq_cons n.whole
      rw [hwhole] at hleft
      cases hleft
      cases hdigit
    rw [List.nil_append, readNumber.eq_2 _ hminus, hread, ← Bool.eq_false_iff.mpr hnegative]

theorem Number.HasText.eq_cons {n : Number} {text : List Char} (h : n.HasText text) :
    ∃ first rest, text = first :: rest ∧ (first = '-' ∨ first.isDigit) := by
  obtain ⟨_, mark, _, rfl⟩ := h
  split
  · exact ⟨'-', _, rfl, .inl rfl⟩
  · obtain ⟨first, rest, hwhole, hdigit⟩ := Text.exists_toDigits_eq_cons n.whole
    rw [hwhole]
    exact ⟨first, _, rfl, .inr hdigit⟩

/-! ## Values -/

/-- The texts of a name, with white space around it. -/
def NameHasText (key : List Glyph) (text : List Char) : Prop :=
  ∃ before name after, IsSpace before ∧ StringHasText key name ∧ IsSpace after ∧
    text = before ++ name ++ after

mutual

/-- The texts of a value. -/
inductive HasText : Json → List Char → Prop
  | null : HasText .null "null".toList
  | true : HasText (.bool true) "true".toList
  | false : HasText (.bool false) "false".toList
  | number {n : Number} {text : List Char} (h : n.HasText text) : HasText (.number n) text
  | string {glyphs : List Glyph} {text : List Char} (h : StringHasText glyphs text) :
      HasText (.string glyphs) text
  | emptyArray {space : List Char} (h : IsSpace space) :
      HasText (.array []) ('[' :: space ++ [']'])
  | array {items : List Json} {text : List Char} (h : ItemsHaveText items text) :
      HasText (.array items) ('[' :: text ++ [']'])
  | emptyObject {space : List Char} (h : IsSpace space) :
      HasText (.object []) ('\x7b' :: space ++ ['\x7d'])
  | object {members : List (List Glyph × Json)} {text : List Char}
      (h : MembersHaveText members text) : HasText (.object members) ('\x7b' :: text ++ ['\x7d'])

/-- The texts of a value with white space around it. -/
inductive HasSpacedText : Json → List Char → Prop
  | intro {j : Json} {before text after : List Char} (hbefore : IsSpace before)
      (h : HasText j text) (hafter : IsSpace after) : HasSpacedText j (before ++ text ++ after)

/-- What may stand between the brackets of an array with items. -/
inductive ItemsHaveText : List Json → List Char → Prop
  | last {item : Json} {text : List Char} (h : HasSpacedText item text) :
      ItemsHaveText [item] text
  | cons {item : Json} {items : List Json} {text later : List Char} (h : HasSpacedText item text)
      (hlater : ItemsHaveText items later) : ItemsHaveText (item :: items) (text ++ ',' :: later)

/-- What may stand between the braces of an object with members. -/
inductive MembersHaveText : List (List Glyph × Json) → List Char → Prop
  | last {key : List Glyph} {value : Json} {name text : List Char} (hkey : NameHasText key name)
      (h : HasSpacedText value text) : MembersHaveText [(key, value)] (name ++ ':' :: text)
  | cons {key : List Glyph} {value : Json} {members : List (List Glyph × Json)}
      {name text later : List Char} (hkey : NameHasText key name) (h : HasSpacedText value text)
      (hlater : MembersHaveText members later) :
      MembersHaveText ((key, value) :: members) (name ++ ':' :: (text ++ ',' :: later))

end

/-! ## First characters -/

/-- What a value may start with: no blank, and nothing that closes a list. -/
def StartsValue (text : List Char) : Prop :=
  ∃ first rest, text = first :: rest ∧ isBlank first = false ∧ first ≠ ']'

theorem StartsValue.of_digit {c : Char} (h : c = '-' ∨ c.isDigit) (text : List Char) :
    StartsValue (c :: text) := by
  refine ⟨c, text, rfl, ?_, ?_⟩
  · rw [Bool.eq_false_iff]
    intro hblank
    simp only [isBlank, Bool.or_eq_true, beq_iff_eq] at hblank
    rcases hblank with ((rfl | rfl) | rfl) | rfl <;> rcases h with h | h <;> cases h
  · rintro rfl
    rcases h with h | h <;> cases h

theorem HasText.startsValue {j : Json} {text : List Char} (h : HasText j text)
    (rest : List Char) : StartsValue (text ++ rest) := by
  cases h with
  | null => exact ⟨'n', _, rfl, by decide, by decide⟩
  | true => exact ⟨'t', _, rfl, by decide, by decide⟩
  | false => exact ⟨'f', _, rfl, by decide, by decide⟩
  | number h =>
      obtain ⟨first, later, rfl, hfirst⟩ := h.eq_cons
      exact .of_digit hfirst _
  | string h =>
      obtain ⟨inner, _, rfl⟩ := h
      exact ⟨'"', _, rfl, by decide, by decide⟩
  | emptyArray | array => exact ⟨'[', _, rfl, by decide, by decide⟩
  | emptyObject | object => exact ⟨'\x7b', _, rfl, by decide, by decide⟩

theorem HasText.length_pos {j : Json} {text : List Char} (h : HasText j text) :
    0 < text.length := by
  obtain ⟨first, rest, heq, _⟩ := h.startsValue []
  rw [List.append_nil] at heq
  rw [heq, List.length_cons]
  omega

theorem skipBlanks_of_startsValue {text : List Char} (h : StartsValue text) :
    skipBlanks text = text := by
  obtain ⟨first, rest, rfl, hblank, _⟩ := h
  exact List.dropWhile_cons_of_neg (by simp [hblank])

/-! ## Reading by the first character -/

section

variable {fuel : Nat} {text rest : List Char}

theorem readValue_string (h : skipBlanks text = '"' :: rest) :
    readValue (fuel + 1) text =
      (readGlyphs rest).map fun (glyphs, left) => (.string glyphs, left) := by
  simp only [readValue, h]

theorem readValue_emptyArray {left : List Char} (h : skipBlanks text = '[' :: rest)
    (hclosing : skipBlanks rest = ']' :: left) :
    readValue (fuel + 1) text = some (.array [], left) := by
  simp only [readValue, h, hclosing]

theorem readValue_emptyObject {left : List Char} (h : skipBlanks text = '\x7b' :: rest)
    (hclosing : skipBlanks rest = '\x7d' :: left) :
    readValue (fuel + 1) text = some (.object [], left) := by
  simp only [readValue, h, hclosing]

theorem readValue_array (h : skipBlanks text = '[' :: rest)
    (hclosing : ∀ left, skipBlanks rest = ']' :: left → False) :
    readValue (fuel + 1) text =
      (readItems fuel rest).map fun (items, left) => (.array items, left) := by
  simp only [readValue, h]

theorem readValue_object (h : skipBlanks text = '\x7b' :: rest)
    (hclosing : ∀ left, skipBlanks rest = '\x7d' :: left → False) :
    readValue (fuel + 1) text =
      (readMembers fuel rest).map fun (members, left) => (.object members, left) := by
  simp only [readValue, h]

theorem readValue_number {first : Char} (h : skipBlanks text = first :: rest)
    (hfirst : first = '-' ∨ first.isDigit) :
    readValue (fuel + 1) text =
      (readNumber (first :: rest)).map fun (n, left) => (.number n, left) := by
  rw [readValue, h]
  split
  case h_7 => rfl
  all_goals
    rename_i heq
    cases heq
    rcases hfirst with hfirst | hfirst <;> cases hfirst

theorem readItems_last {item : Json} {left : List Char}
    (hitem : readValue fuel text = some (item, rest)) (hclosing : skipBlanks rest = ']' :: left) :
    readItems (fuel + 1) text = some ([item], left) := by
  simp only [readItems, hitem, Option.bind_eq_bind, Option.bind_some, hclosing]
  rfl

theorem readItems_cons {item : Json} {items : List Json} {later left : List Char}
    (hitem : readValue fuel text = some (item, rest)) (hcomma : skipBlanks rest = ',' :: later)
    (hlater : readItems fuel later = some (items, left)) :
    readItems (fuel + 1) text = some (item :: items, left) := by
  simp only [readItems, hitem, Option.bind_eq_bind, Option.bind_some, hcomma, hlater]
  rfl

/-- A name, a colon and a value are read. -/
def ReadsMember (fuel : Nat) (text : List Char) (key : List Glyph) (value : Json)
    (rest : List Char) : Prop :=
  ∃ name colon after, skipBlanks text = '"' :: name ∧ readGlyphs name = some (key, colon) ∧
    skipBlanks colon = ':' :: after ∧ readValue fuel after = some (value, rest)

theorem readMembers_last {key : List Glyph} {value : Json} {left : List Char}
    (h : ReadsMember fuel text key value rest) (hclosing : skipBlanks rest = '\x7d' :: left) :
    readMembers (fuel + 1) text = some ([(key, value)], left) := by
  obtain ⟨name, colon, after, hname, hkey, hcolon, hvalue⟩ := h
  simp only [readMembers, hname, hkey, hcolon, hvalue, Option.bind_eq_bind, Option.bind_some,
    hclosing]
  rfl

theorem readMembers_cons {key : List Glyph} {value : Json}
    {members : List (List Glyph × Json)} {later left : List Char}
    (h : ReadsMember fuel text key value rest) (hcomma : skipBlanks rest = ',' :: later)
    (hlater : readMembers fuel later = some (members, left)) :
    readMembers (fuel + 1) text = some ((key, value) :: members, left) := by
  obtain ⟨name, colon, after, hname, hkey, hcolon, hvalue⟩ := h
  simp only [readMembers, hname, hkey, hcolon, hvalue, Option.bind_eq_bind, Option.bind_some,
    hcomma, hlater]
  rfl

end

/-! ## Reading of all texts -/

theorem EndsNumber.space {space text : List Char} (hspace : IsSpace space)
    (htext : EndsNumber text) : EndsNumber (space ++ text) := by
  cases space with
  | nil => exact htext
  | cons c rest =>
      have hall : ∀ c ∈ [' ', '\n', '\t', '\r'],
          c.isDigit = false ∧ c ≠ '.' ∧ c ≠ 'e' ∧ c ≠ 'E' := by simp
      rintro c ⟨⟩
      exact hall c (hspace c List.mem_cons_self)

theorem endsNumber_cons {c : Char} (h : c = ',' ∨ c = ']' ∨ c = '\x7d') (text : List Char) :
    EndsNumber (c :: text) := by
  rintro c ⟨⟩
  rcases h with rfl | rfl | rfl <;> decide

theorem HasSpacedText.length_pos {j : Json} {text : List Char} (h : HasSpacedText j text) :
    0 < text.length := by
  obtain ⟨_, h, _⟩ := h
  have hpos := h.length_pos
  simp only [List.length_append]
  omega

/-- The items of an array do not start with what closes it. -/
theorem ItemsHaveText.not_closing {items : List Json} {text : List Char}
    (h : ItemsHaveText items text) (rest left : List Char) :
    skipBlanks (text ++ rest) ≠ ']' :: left := by
  have hspaced {item : Json} {text : List Char} (h : HasSpacedText item text) (rest : List Char) :
      skipBlanks (text ++ rest) ≠ ']' :: left := by
    obtain ⟨hbefore, hvalue, _⟩ := h
    rw [List.append_assoc, List.append_assoc, skipBlanks_append hbefore,
      skipBlanks_of_startsValue (hvalue.startsValue _)]
    obtain ⟨first, later, heq, _, hne⟩ := hvalue.startsValue (_ ++ rest)
    rw [heq]
    exact fun hclosing => hne (List.cons.inj hclosing).1
  cases h with
  | last h => exact hspaced h rest
  | cons h _ =>
      rw [List.append_assoc]
      exact hspaced h _

/-- The name of a member starts with its quote and is read up to its colon. -/
theorem readGlyphs_of_nameHasText {key : List Glyph} {text : List Char}
    (h : NameHasText key text) (rest : List Char) :
    ∃ name colon, skipBlanks (text ++ ':' :: rest) = '"' :: name ∧
      readGlyphs name = some (key, colon) ∧ skipBlanks colon = ':' :: rest := by
  obtain ⟨before, name, after, hbefore, ⟨inner, hinner, rfl⟩, hafter, rfl⟩ := h
  refine ⟨inner ++ '"' :: (after ++ ':' :: rest), after ++ ':' :: rest, ?_,
    readGlyphs_of_haveText hinner _, skipBlanks_append hafter _⟩
  simp only [List.append_assoc, List.cons_append, List.nil_append, skipBlanks_append hbefore]
  rfl

/-- The members of an object do not start with what closes it. -/
theorem MembersHaveText.not_closing {members : List (List Glyph × Json)} {text : List Char}
    (h : MembersHaveText members text) (rest left : List Char) :
    skipBlanks (text ++ rest) ≠ '\x7d' :: left := by
  have hnamed {key : List Glyph} {name : List Char} (h : NameHasText key name)
      (rest : List Char) : skipBlanks (name ++ ':' :: rest) ≠ '\x7d' :: left := by
    obtain ⟨_, _, hquote, _⟩ := readGlyphs_of_nameHasText h rest
    rw [hquote]
    exact fun hclosing => absurd (List.cons.inj hclosing).1 (by decide)
  cases h with
  | last hkey _ | cons hkey _ _ =>
      rw [List.append_assoc]
      exact hnamed hkey _

-- The induction is on the grammar. A list takes one step to open it and one for each of its parts,
-- and has a character for its bracket and one for each comma: so two steps of reading for each
-- character are enough, at every depth.

mutual

/-- A value is read up to the end of its text, behind any blanks. -/
theorem readValue_of_hasText {j : Json} {text : List Char} (h : HasText j text) {fuel : Nat}
    {input rest : List Char} (hfuel : 2 * text.length ≤ fuel)
    (hinput : skipBlanks input = text ++ rest) (hrest : EndsNumber rest) :
    readValue fuel input = some (j, rest) := by
  have hpos := h.length_pos
  obtain ⟨fuel, rfl⟩ : ∃ less, fuel = less + 1 := ⟨fuel - 1, by omega⟩
  match h with
  | .null =>
      have hnull : skipBlanks input = 'n' :: 'u' :: 'l' :: 'l' :: rest := hinput
      simp only [readValue, hnull]
  | .true =>
      have htrue : skipBlanks input = 't' :: 'r' :: 'u' :: 'e' :: rest := hinput
      simp only [readValue, htrue]
  | .false =>
      have hfalse : skipBlanks input = 'f' :: 'a' :: 'l' :: 's' :: 'e' :: rest := hinput
      simp only [readValue, hfalse]
  | .number h =>
      have hread := readNumber_of_hasText h hrest
      obtain ⟨first, later, rfl, hfirst⟩ := h.eq_cons
      rw [List.cons_append] at hinput hread
      rw [readValue_number hinput hfirst, hread]
      rfl
  | .string h =>
      obtain ⟨inner, hinner, rfl⟩ := h
      have hquote : skipBlanks input = '"' :: (inner ++ '"' :: rest) := by
        simpa using hinput
      rw [readValue_string hquote, readGlyphs_of_haveText hinner]
      rfl
  | @HasText.emptyArray space h =>
      have hopening : skipBlanks input = '[' :: (space ++ ']' :: rest) := by
        simpa using hinput
      exact readValue_emptyArray hopening (skipBlanks_append h _)
  | @HasText.array items inner h =>
      have hopening : skipBlanks input = '[' :: (inner ++ ']' :: rest) := by
        simpa using hinput
      simp only [List.length_append, List.length_cons, List.length_nil] at hfuel
      rw [readValue_array hopening (h.not_closing _), readItems_of_haveText h (by omega)]
      rfl
  | @HasText.emptyObject space h =>
      have hopening : skipBlanks input = '\x7b' :: (space ++ '\x7d' :: rest) := by
        simpa using hinput
      exact readValue_emptyObject hopening (skipBlanks_append h _)
  | @HasText.object members inner h =>
      have hopening : skipBlanks input = '\x7b' :: (inner ++ '\x7d' :: rest) := by
        simpa using hinput
      simp only [List.length_append, List.length_cons, List.length_nil] at hfuel
      rw [readValue_object hopening (h.not_closing _), readMembers_of_haveText h (by omega)]
      rfl

/-- With white space around it a value is read up to the white space behind it. -/
theorem readValue_of_hasSpacedText {j : Json} {text : List Char} (h : HasSpacedText j text)
    (fuel : Nat) {rest : List Char} (hfuel : 2 * text.length ≤ fuel) (hrest : EndsNumber rest) :
    ∃ left, readValue fuel (text ++ rest) = some (j, left) ∧
      skipBlanks left = skipBlanks rest := by
  match h with
  | @HasSpacedText.intro _ before value after hbefore hvalue hafter =>
      simp only [List.length_append] at hfuel
      refine ⟨after ++ rest, ?_, skipBlanks_append hafter rest⟩
      apply readValue_of_hasText hvalue (by omega) _ (.space hafter hrest)
      rw [List.append_assoc, List.append_assoc, skipBlanks_append hbefore,
        skipBlanks_of_startsValue (hvalue.startsValue _)]

/-- The items of an array are read up to and with its closing bracket. -/
theorem readItems_of_haveText {items : List Json} {text : List Char}
    (h : ItemsHaveText items text) {fuel : Nat} {rest : List Char}
    (hfuel : 2 * text.length < fuel) :
    readItems fuel (text ++ ']' :: rest) = some (items, rest) := by
  obtain ⟨fuel, rfl⟩ : ∃ less, fuel = less + 1 := ⟨fuel - 1, by omega⟩
  match h with
  | .last h =>
      obtain ⟨left, hitem, hleft⟩ := readValue_of_hasSpacedText h fuel (by omega)
        (endsNumber_cons (.inr (.inl rfl)) rest)
      exact readItems_last hitem hleft
  | .cons h hlater =>
      simp only [List.length_append, List.length_cons] at hfuel
      rw [List.append_assoc, List.cons_append]
      obtain ⟨left, hitem, hleft⟩ := readValue_of_hasSpacedText h fuel (by omega)
        (endsNumber_cons (.inl rfl) _)
      exact readItems_cons hitem hleft (readItems_of_haveText hlater (by omega))

/-- The members of an object are read up to and with its closing brace. -/
theorem readMembers_of_haveText {members : List (List Glyph × Json)} {text : List Char}
    (h : MembersHaveText members text) {fuel : Nat} {rest : List Char}
    (hfuel : 2 * text.length < fuel) :
    readMembers fuel (text ++ '\x7d' :: rest) = some (members, rest) := by
  obtain ⟨fuel, rfl⟩ : ∃ less, fuel = less + 1 := ⟨fuel - 1, by omega⟩
  match h with
  | .last hkey h =>
      simp only [List.length_append, List.length_cons] at hfuel
      rw [List.append_assoc, List.cons_append]
      obtain ⟨name, colon, hquote, hname, hcolon⟩ := readGlyphs_of_nameHasText hkey _
      obtain ⟨left, hvalue, hleft⟩ := readValue_of_hasSpacedText h fuel (by omega)
        (endsNumber_cons (.inr (.inr rfl)) rest)
      exact readMembers_last ⟨name, colon, _, hquote, hname, hcolon, hvalue⟩ hleft
  | .cons hkey h hlater =>
      simp only [List.length_append, List.length_cons] at hfuel
      rw [List.append_assoc, List.cons_append, List.append_assoc, List.cons_append]
      obtain ⟨name, colon, hquote, hname, hcolon⟩ := readGlyphs_of_nameHasText hkey _
      obtain ⟨left, hvalue, hleft⟩ := readValue_of_hasSpacedText h fuel (by omega)
        (endsNumber_cons (.inl rfl) _)
      exact readMembers_cons ⟨name, colon, _, hquote, hname, hcolon, hvalue⟩ hleft
        (readMembers_of_haveText hlater (by omega))

end

/-- Every text of a document is read as that document. -/
theorem parse_of_hasText {j : Json} {text : String} (h : HasSpacedText j text.toList) :
    parse text = some j := by
  have hends : EndsNumber [] := by
    rintro c ⟨⟩
  obtain ⟨left, hread, hleft⟩ :=
    readValue_of_hasSpacedText h (2 * text.toList.length + 2) (by omega) hends
  rw [List.append_nil] at hread
  simp only [parse, hread, hleft]
  rfl

end Json

end CabinetBus
