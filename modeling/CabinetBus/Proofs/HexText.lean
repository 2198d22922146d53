-- SUMMARY: Which texts are read as hexadecimal, told by what stands between their decorations.
import Mathlib.Algebra.Group.Nat.Even
import Mathlib.Data.List.TakeWhile
import CabinetBus.Message.ReportReader
import CabinetBus.Proofs.Numerals

/-!
# Hexadecimal texts

The blanks around a text and one opening radix are decoration; what stands between them is the
body. The body alone decides whether the text is read: its characters are taken in pairs, and a
pair is two digits, or a plus sign and one digit. A body without a plus sign is therefore read
exactly if its characters are digits and even in number.
-/

namespace CabinetBus

/-! ## Blanks around a text -/

namespace Text

/-- No blank stands at either end. -/
def IsBare (core : List Char) : Prop :=
  (∀ c ∈ core.head?, isBlank c = false) ∧ ∀ c ∈ core.getLast?, isBlank c = false

/-- A text is its core with nothing but blanks around it. -/
def HasCore (text core : List Char) : Prop :=
  ∃ front back, text = front ++ core ++ back ∧ (∀ c ∈ front ++ back, isBlank c) ∧ IsBare core

theorem dropWhile_isBlank_append {front rest : List Char} (hfront : ∀ c ∈ front, isBlank c)
    (hrest : ∀ c ∈ rest.head?, isBlank c = false) : (front ++ rest).dropWhile isBlank = rest := by
  have hkept : rest.dropWhile isBlank = rest := by
    cases rest with
    | nil => rfl
    | cons first more => exact List.dropWhile_cons_of_neg (by simp [hrest first rfl])
  exact (List.dropWhile_append_of_pos hfront).trans hkept

theorem head?_dropWhile_isBlank (text : List Char) :
    ∀ c ∈ (text.dropWhile isBlank).head?, isBlank c = false := by
  intro c hc
  have hfirst := List.head?_dropWhile_not isBlank text
  rwa [Option.mem_def.mp hc] at hfirst

/-- Trimming leaves the core. -/
theorem trim_eq_of_hasCore {text core : List Char} (h : HasCore text core) : trim text = core := by
  obtain ⟨front, back, rfl, hblank, hhead, hlast⟩ := h
  have hfront : ∀ c ∈ front, isBlank c := fun c hc => hblank c (List.mem_append_left _ hc)
  have hback : ∀ c ∈ back.reverse, isBlank c := fun c hc =>
    hblank c (List.mem_append_right _ (List.mem_reverse.mp hc))
  cases core with
  | nil =>
      -- With no core there is no end to stop at: all of the text is dropped from its front.
      have hall : (front ++ [] ++ back).dropWhile isBlank = [] :=
        List.dropWhile_eq_nil_iff.mpr (by simpa using hblank)
      rw [trim, hall]
      rfl
  | cons first more =>
      have hdropped : (front ++ (first :: more) ++ back).dropWhile isBlank =
          (first :: more) ++ back := by
        rw [List.append_assoc]
        exact dropWhile_isBlank_append hfront (by simpa using hhead)
      have hreversed : ((first :: more) ++ back).reverse.dropWhile isBlank =
          (first :: more).reverse := by
        rw [List.reverse_append]
        exact dropWhile_isBlank_append hback (by rwa [List.head?_reverse])
      rw [trim, hdropped, hreversed, List.reverse_reverse]

/-- What trimming leaves is the core. -/
theorem hasCore_trim (text : List Char) : HasCore text (trim text) := by
  let kept := text.dropWhile isBlank
  let front := text.takeWhile isBlank
  let back := (kept.reverse.takeWhile isBlank).reverse
  have hkept : kept = trim text ++ back := by
    have hsplit := List.takeWhile_append_dropWhile (p := isBlank) (l := kept.reverse)
    rw [← List.reverse_reverse kept, ← hsplit, List.reverse_append]
    simp [trim, kept, back]
  refine ⟨front, back, ?_, ?_, ?_, ?_⟩
  · rw [List.append_assoc, ← hkept]
    exact List.takeWhile_append_dropWhile.symm
  · intro c hc
    rcases List.mem_append.mp hc with hc | hc
    · exact List.mem_takeWhile_imp hc
    · exact List.mem_takeWhile_imp (List.mem_reverse.mp hc)
  · intro c hc
    apply head?_dropWhile_isBlank text
    have hfirst : c ∈ kept.head? := by
      rw [hkept, List.head?_append]
      simp [Option.mem_def.mp hc]
    exact hfirst
  · intro c hc
    apply head?_dropWhile_isBlank kept.reverse
    simpa [trim, kept, List.getLast?_reverse] using hc

theorem hasCore_iff {text core : List Char} : HasCore text core ↔ trim text = core := by
  refine ⟨trim_eq_of_hasCore, ?_⟩
  rintro rfl
  exact hasCore_trim text

/-! ## Digits -/

def IsHexDigit (c : Char) : Prop :=
  ('0' ≤ c ∧ c ≤ '9') ∨ ('a' ≤ c ∧ c ≤ 'f') ∨ ('A' ≤ c ∧ c ≤ 'F')

instance (c : Char) : Decidable (IsHexDigit c) := by unfold IsHexDigit; infer_instance

theorem isSome_hexValue?_iff {c : Char} : (hexValue? c).isSome ↔ IsHexDigit c := by
  unfold hexValue? IsHexDigit
  split
  · simp_all
  · split
    · simp_all
    · split <;> simp_all

theorem isBlank_eq_false_of_isHexDigit {c : Char} (h : IsHexDigit c) : isBlank c = false := by
  have hcode : 0x30 ≤ c.toNat ∧ c.toNat ≤ 0x66 := by
    have hle {a b : Char} (hab : a ≤ b) : a.toNat ≤ b.toNat := hab
    rcases h with ⟨hlow, hhigh⟩ | ⟨hlow, hhigh⟩ | ⟨hlow, hhigh⟩
    · exact ⟨hle hlow, le_trans (hle hhigh) (by decide)⟩
    · exact ⟨le_trans (by decide) (hle hlow), hle hhigh⟩
    · exact ⟨le_trans (by decide) (hle hlow), le_trans (hle hhigh) (by decide)⟩
  simp only [isBlank, blankRanges, List.any_cons, List.any_nil, Bool.or_eq_false_iff,
    Bool.and_eq_false_iff, decide_eq_false_iff_not, and_true]
  omega

end Text

namespace Bytes

/-! ## Bodies -/

/-- A core and its body, which stands behind one radix or is all of the core. -/
inductive BehindRadix : List Char → List Char → Prop
  | lower (body : List Char) : BehindRadix ('0' :: 'x' :: body) body
  | upper (body : List Char) : BehindRadix ('0' :: 'X' :: body) body
  | plain {body : List Char} (hlower : ∀ rest, body ≠ '0' :: 'x' :: rest)
      (hupper : ∀ rest, body ≠ '0' :: 'X' :: rest) : BehindRadix body body

theorem behindRadix_iff {core body : List Char} :
    BehindRadix core body ↔ dropRadix core = body := by
  constructor
  · intro h
    cases h with
    | lower | upper => rfl
    | plain hlower hupper =>
        unfold dropRadix
        split
        · exact absurd rfl (hlower _)
        · exact absurd rfl (hupper _)
        · rfl
  · rintro rfl
    unfold dropRadix
    split
    · exact .lower _
    · exact .upper _
    · next hlower hupper => exact .plain hlower hupper

/-- The body of a text, between its decorations. -/
def IsBody (text : String) (body : List Char) : Prop :=
  ∃ core, Text.HasCore text.toList core ∧ BehindRadix core body

theorem isBody_iff {text : String} {body : List Char} :
    IsBody text body ↔ dropRadix (Text.trim text.toList) = body := by
  simp [IsBody, Text.hasCore_iff, behindRadix_iff]

theorem ofHex?_of_isBody {text : String} {body : List Char} (h : IsBody text body) :
    ofHex? text = ofHexDigits? body := congrArg ofHexDigits? (isBody_iff.mp h)

/-! ## Pairs -/

/-- Characters that are digits and even in number. -/
def OnlyDigits (body : List Char) : Prop := Even body.length ∧ ∀ c ∈ body, Text.IsHexDigit c

/-- Characters in pairs of digits, where a plus sign may stand for the first digit of a pair. -/
inductive Paired : List Char → Prop
  | nil : Paired []
  | cons {high low : Char} {rest : List Char} (hhigh : high = '+' ∨ Text.IsHexDigit high)
      (hlow : Text.IsHexDigit low) (hrest : Paired rest) : Paired (high :: low :: rest)

theorem isSome_pairValue?_iff {high low : Char} :
    (pairValue? high low).isSome ↔ (high = '+' ∨ Text.IsHexDigit high) ∧ Text.IsHexDigit low := by
  rw [pairValue?, ← Text.isSome_hexValue?_iff, ← Text.isSome_hexValue?_iff]
  split
  · next hplus => simp [hplus]
  · next hplus =>
      simp only [hplus, false_or]
      cases Text.hexValue? high <;> cases Text.hexValue? low <;> simp

theorem paired_cons_iff {high low : Char} {rest : List Char} :
    Paired (high :: low :: rest) ↔ (pairValue? high low).isSome ∧ Paired rest := by
  rw [isSome_pairValue?_iff]
  constructor
  · intro h
    cases h with
    | cons hhigh hlow hrest => exact ⟨⟨hhigh, hlow⟩, hrest⟩
  · rintro ⟨⟨hhigh, hlow⟩, hrest⟩
    exact .cons hhigh hlow hrest

theorem isSome_ofHexDigits?_iff {body : List Char} : (ofHexDigits? body).isSome ↔ Paired body := by
  fun_induction ofHexDigits? body with
  | case1 => simp [Paired.nil]
  | case2 only => exact iff_of_false (by simp) (by rintro ⟨⟩)
  | case3 high low rest ih =>
      rw [paired_cons_iff, ← ih]
      cases pairValue? high low <;> cases ofHexDigits? rest <;> simp

theorem onlyDigits_cons_iff {high low : Char} {rest : List Char} :
    OnlyDigits (high :: low :: rest) ↔
      Text.IsHexDigit high ∧ Text.IsHexDigit low ∧ OnlyDigits rest := by
  simp only [OnlyDigits, List.length_cons, List.forall_mem_cons, Nat.even_add_one, not_not]
  rw [and_left_comm, and_left_comm (a := Even rest.length)]

/-- Pairs without a plus sign are pairs of digits, and these are all digits that are even in
number. -/
theorem onlyDigits_iff {body : List Char} : OnlyDigits body ↔ Paired body ∧ '+' ∉ body := by
  fun_induction ofHexDigits? body with
  | case1 => simp [OnlyDigits, Paired.nil]
  | case2 only =>
      refine iff_of_false (fun h => ?_) fun h => ?_
      · exact absurd h.1 (by simp)
      · cases h.1
  | case3 high low rest ih =>
      have hplus : ¬ Text.IsHexDigit '+' := by decide
      rw [onlyDigits_cons_iff, ih, paired_cons_iff, isSome_pairValue?_iff]
      simp only [List.mem_cons, not_or]
      constructor
      · rintro ⟨hhigh, hlow, hrest, hno⟩
        refine ⟨⟨⟨.inr hhigh, hlow⟩, hrest⟩, ?_, ?_, hno⟩
        · rintro rfl
          exact hplus hhigh
        · rintro rfl
          exact hplus hlow
      · rintro ⟨⟨⟨hhigh, hlow⟩, hrest⟩, hne, -, hno⟩
        exact ⟨hhigh.resolve_left fun h => hne h.symm, hlow, hrest, hno⟩

/-! ## What is read -/

/-- A text that is not read is refused by its own, and the frame loaded before it stays. A text
that is read may still be refused, but as a frame. -/
theorem loadHex_eq_iff (r : ReportReader) (text : String) :
    (r.loadHex text).1 = .error (.invalidHex text) ↔ ofHex? text = none := by
  rw [ReportReader.loadHex]
  cases ofHex? text with
  | none => simp
  | some wire =>
      simp only [ReportReader.load, reduceCtorEq, iff_false]
      split <;> simp

/-- Every text has one body, and is read exactly if that is made of pairs; any other text is
refused as no hexadecimal. Pairs are what digits even in number are, and besides them only pairs
that begin with a plus sign. -/
theorem hex_accepted_iff_paired (text : String) :
    ∃ body, (∀ other, IsBody text other ↔ other = body) ∧
      ((ofHex? text).isSome ↔ Paired body) ∧
      (∀ r : ReportReader, (r.loadHex text).1 = .error (.invalidHex text) ↔ ¬ Paired body) ∧
      (OnlyDigits body ↔ Paired body ∧ '+' ∉ body) := by
  refine ⟨dropRadix (Text.trim text.toList), fun other => isBody_iff.trans eq_comm, ?_, ?_, ?_⟩
  · exact isSome_ofHexDigits?_iff
  · intro r
    rw [loadHex_eq_iff, ← isSome_ofHexDigits?_iff, Option.not_isSome_iff_eq_none]
    rfl
  · exact onlyDigits_iff

/-- A plus sign is no digit, and yet it is read with the digit behind it. -/
theorem plus_sign_accepted :
    IsBody "+f" ['+', 'f'] ∧ ¬ OnlyDigits ['+', 'f'] ∧ ofHex? "+f" = some [0x0F] ∧
      (ReportReader.empty.loadHex "+f").1 ≠ .error (.invalidHex "+f") := by
  refine ⟨isBody_iff.mpr (by decide), ?_, by decide, by decide +kernel⟩
  exact fun h => absurd (h.2 '+' (by decide)) (by decide)

end Bytes

end CabinetBus
