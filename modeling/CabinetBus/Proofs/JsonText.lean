-- SUMMARY: Written JSON text is read back to the document that it was written for.
import CabinetBus.Json.Printer
import CabinetBus.Proofs.JsonGrammar

/-!
# Written JSON

Reading undoes writing, for every document whose parts can be written at all: what is written is a
text of the document in the grammar. What comes back is the document itself but for the control
characters without a letter of their own: they are written by number and come back as numbered
units, which spell the same text.
-/

namespace CabinetBus

namespace Json

/-! ## Strings -/

/-- Units are numbered with four hexadecimal digits. -/
def Glyph.IsWritten : Glyph → Prop
  | .char _ => True
  | .unit code => code < 0x10000

/-- The control characters that have a letter to be escaped with. -/
def lettered : List Char := ['\x08', '\t', '\n', '\x0c', '\r']

/-- The glyph that is read where `g` was written. -/
def Glyph.spelled : Glyph → Glyph
  | .char c => if c.toNat < 0x20 ∧ c ∉ lettered then .unit c.toNat else .char c
  | .unit code => .unit code

theorem hasText_hexUnit {code : Nat} (h : code < 0x10000) :
    (Glyph.unit code).HasText (hexUnit code) := by
  have hlower : (Text.digits 16 4 code).map Char.toLower = Text.digits 16 4 code := by
    rw [Text.digits_four h]
    simp only [List.map_cons, List.map_nil,
      Text.toLower_digitChar (show code / 16 / 16 / 16 < 16 by omega),
      Text.toLower_digitChar (Nat.mod_lt _ (show 16 > 0 by decide))]
  exact .unit h hlower

/-- What is written for a glyph is a text of its spelling. -/
theorem hasText_printGlyph {g : Glyph} (h : g.IsWritten) : g.spelled.HasText (printGlyph g) := by
  cases g with
  | unit code => exact hasText_hexUnit h
  | char c =>
      simp only [printGlyph]
      split
      case h_8 hquote hslash hb ht hn hf hr =>
        have hletters : c ∉ lettered := by
          simp only [lettered, List.mem_cons, List.not_mem_nil, or_false, not_or]
          exact ⟨hb, ht, hn, hf, hr⟩
        by_cases hcontrol : c.toNat < 0x20
        · rw [if_pos hcontrol, Glyph.spelled, if_pos ⟨hcontrol, hletters⟩]
          exact hasText_hexUnit (by omega)
        · rw [if_neg hcontrol, Glyph.spelled, if_neg (fun h => hcontrol h.1)]
          exact .plain hcontrol hquote hslash
      all_goals exact .letter (by decide)

/-- What is written for a string is a text of its spelling. -/
theorem stringHasText_printString {glyphs : List Glyph} (h : ∀ g ∈ glyphs, g.IsWritten) :
    StringHasText (glyphs.map Glyph.spelled) (printString glyphs) := by
  refine ⟨glyphs.flatMap printGlyph, ?_, rfl⟩
  induction glyphs with
  | nil => exact .nil
  | cons g rest ih =>
      exact .cons (hasText_printGlyph (h g List.mem_cons_self))
        (ih fun other hother => h other (List.mem_cons_of_mem g hother))

/-! ## Texts -/

theorem chars?_high_cons {code : Nat} (hhigh : isHighUnit code) {rest : List Glyph}
    (hrest : ∀ low later, rest = .unit low :: later → isLowUnit low = false) :
    chars? (.unit code :: rest) = none := by
  rw [chars?.eq_def]
  dsimp only
  rw [if_pos hhigh]
  split
  · rename_i low later
    rw [hrest low later rfl]
    rfl
  · rfl

theorem chars?_low_cons {code : Nat} (hhigh : ¬ isHighUnit code) (hlow : isLowUnit code)
    (rest : List Glyph) : chars? (.unit code :: rest) = none := by
  rw [chars?.eq_def]
  dsimp only
  rw [if_neg hhigh, if_pos hlow]

theorem chars?_whole_cons {code : Nat} (hhigh : ¬ isHighUnit code) (hlow : ¬ isLowUnit code)
    (rest : List Glyph) :
    chars? (.unit code :: rest) = (chars? rest).map (Char.ofNat code :: ·) := by
  rw [chars?.eq_def]
  dsimp only
  rw [if_neg hhigh, if_neg hlow]

/-- A unit below the halves of pairs. -/
theorem isUnit_of_control {code : Nat} (h : code < 0x20) :
    isHighUnit code = false ∧ isLowUnit code = false := by
  simp only [isHighUnit, isLowUnit, Bool.and_eq_false_iff, decide_eq_false_iff_not]
  omega

/-- A document spells the same texts as it is read back. -/
theorem chars?_map_spelled (glyphs : List Glyph) :
    chars? (glyphs.map Glyph.spelled) = chars? glyphs := by
  fun_induction chars? glyphs with
  | case1 => rfl
  | case2 c rest ih =>
      rw [List.map_cons, Glyph.spelled]
      split
      case isTrue h =>
        obtain ⟨hhigh, hlow⟩ := isUnit_of_control h.1
        rw [chars?_whole_cons (by simp [hhigh]) (by simp [hlow]), ih, Char.ofNat_toNat]
      case isFalse => rw [chars?, ih]
  | case3 code hhigh low rest hlow ih =>
      rw [List.map_cons, List.map_cons, Glyph.spelled, Glyph.spelled, chars?, if_pos hhigh,
        if_pos hlow, ih]
  | case4 code hhigh low rest hlow =>
      rw [List.map_cons, List.map_cons, Glyph.spelled, Glyph.spelled, chars?, if_pos hhigh,
        if_neg hlow]
  | case5 code rest hhigh hrest =>
      apply chars?_high_cons hhigh
      intro low later hspelled
      obtain ⟨g, more, rfl, hg, _⟩ := List.map_eq_cons_iff.mp hspelled
      cases g with
      | unit other => exact absurd rfl (hrest other more)
      | char c =>
          rw [Glyph.spelled] at hg
          split at hg
          · rename_i h
            cases hg
            exact (isUnit_of_control h.1).2
          · cases hg
  | case6 code rest hhigh hlow => exact chars?_low_cons hhigh hlow _
  | case7 code rest hhigh hlow ih =>
      rw [List.map_cons, Glyph.spelled, chars?_whole_cons hhigh hlow, ih]

/-! ## Numbers -/

theorem Number.IsWritten.hasText {n : Number} (h : n.IsWritten) : n.HasText (printNumber n) := by
  refine ⟨h, 'e', List.mem_cons_self, ?_⟩
  rw [printNumber, Text.digits_one, List.append_assoc, List.append_assoc]
  rfl

/-! ## Documents -/

mutual

/-- Every part of the document can be written. -/
def IsWritten : Json → Prop
  | .null | .bool _ => True
  | .number n => n.IsWritten
  | .string glyphs => ∀ g ∈ glyphs, g.IsWritten
  | .array items => ItemsAreWritten items
  | .object members => MembersAreWritten members

def ItemsAreWritten : List Json → Prop
  | [] => True
  | item :: rest => item.IsWritten ∧ ItemsAreWritten rest

def MembersAreWritten : List (List Glyph × Json) → Prop
  | [] => True
  | (key, value) :: rest =>
      (∀ g ∈ key, g.IsWritten) ∧ value.IsWritten ∧ MembersAreWritten rest

end

mutual

/-- The document that is read where this one was written. -/
def spelled : Json → Json
  | .null => .null
  | .bool b => .bool b
  | .number n => .number n
  | .string glyphs => .string (glyphs.map Glyph.spelled)
  | .array items => .array (spelledItems items)
  | .object members => .object (spelledMembers members)

def spelledItems : List Json → List Json
  | [] => []
  | item :: rest => item.spelled :: spelledItems rest

def spelledMembers : List (List Glyph × Json) → List (List Glyph × Json)
  | [] => []
  | (key, value) :: rest => (key.map Glyph.spelled, value.spelled) :: spelledMembers rest

end

/-! ## Reading what was written -/

theorem isSpace_newline (depth : Nat) : IsSpace (newline depth) := by
  intro c hc
  rcases List.mem_cons.mp hc with rfl | hc
  · decide
  · rw [List.eq_of_mem_replicate hc]
    decide

theorem nameHasText_printed (depth : Nat) {key : List Glyph} (h : ∀ g ∈ key, g.IsWritten) :
    NameHasText (key.map Glyph.spelled) (newline depth ++ printString key) :=
  ⟨newline depth, printString key, [], isSpace_newline depth, stringHasText_printString h,
    isSpace_nil, (List.append_nil _).symm⟩

-- The induction is on the document. A line break stands before every item and every member, and
-- the one before the closing bracket belongs to the last of them.

mutual

/-- What is written for a document is a text of its spelling. -/
theorem hasText_printIndented : ∀ (depth : Nat) (j : Json), j.IsWritten →
    HasText j.spelled (printIndented depth j)
  | _, .null, _ => .null
  | _, .bool true, _ => .true
  | _, .bool false, _ => .false
  | _, .number _, h => .number h.hasText
  | _, .string _, h => .string (stringHasText_printString h)
  | _, .array [], _ => .emptyArray isSpace_nil
  | depth, .array (item :: items), h => by
      simp only [printIndented]
      exact .array (itemsHaveText_printItemLines (depth + 1) (item :: items)
        (List.cons_ne_nil _ _) h (isSpace_newline depth))
  | _, .object [], _ => .emptyObject isSpace_nil
  | depth, .object (member :: members), h => by
      simp only [printIndented]
      exact .object (membersHaveText_printMemberLines (depth + 1) (member :: members)
        (List.cons_ne_nil _ _) h (isSpace_newline depth))

theorem itemsHaveText_printItemLines : ∀ (depth : Nat) (items : List Json), items ≠ [] →
    ItemsAreWritten items → ∀ {space : List Char}, IsSpace space →
      ItemsHaveText (spelledItems items) (printItemLines depth items ++ space)
  | _, [], hne, _, _, _ => absurd rfl hne
  | depth, [item], _, h, _, hspace =>
      .last (.intro (isSpace_newline depth) (hasText_printIndented depth item h.1) hspace)
  | depth, item :: next :: items, _, h, space, hspace => by
      have hitem := HasSpacedText.intro (isSpace_newline depth)
        (hasText_printIndented depth item h.1) isSpace_nil
      have hitems := ItemsHaveText.cons hitem
        (itemsHaveText_printItemLines depth (next :: items) (List.cons_ne_nil _ _) h.2 hspace)
      simpa [printItemLines, spelledItems] using hitems

theorem membersHaveText_printMemberLines : ∀ (depth : Nat) (members : List (List Glyph × Json)),
    members ≠ [] → MembersAreWritten members → ∀ {space : List Char}, IsSpace space →
      MembersHaveText (spelledMembers members) (printMemberLines depth members ++ space)
  | _, [], hne, _, _, _ => absurd rfl hne
  | depth, [(key, value)], _, h, space, hspace => by
      have hname := nameHasText_printed depth h.1
      have hvalue := HasSpacedText.intro isSpace_blank
        (hasText_printIndented depth value h.2.1) hspace
      simpa [printMemberLines, spelledMembers] using MembersHaveText.last hname hvalue
  | depth, (key, value) :: next :: members, _, h, space, hspace => by
      have hname := nameHasText_printed depth h.1
      have hvalue := HasSpacedText.intro isSpace_blank
        (hasText_printIndented depth value h.2.1) isSpace_nil
      have hmembers := MembersHaveText.cons hname hvalue
        (membersHaveText_printMemberLines depth (next :: members) (List.cons_ne_nil _ _) h.2.2
          hspace)
      simpa [printMemberLines, spelledMembers] using hmembers

end

theorem hasSpacedText_indented {j : Json} (h : j.IsWritten) :
    HasSpacedText j.spelled (indented j).toList := by
  rw [indented, String.toList_ofList]
  simpa using HasSpacedText.intro isSpace_nil (hasText_printIndented 0 j h) isSpace_nil

/-- Reading undoes writing. -/
theorem parse_indented {j : Json} (h : j.IsWritten) : parse (indented j) = some j.spelled :=
  parse_of_hasText (hasSpacedText_indented h)

end Json

end CabinetBus
