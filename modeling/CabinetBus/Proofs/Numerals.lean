-- SUMMARY: The digits of a numeral one by one, and the values of single digits of either case.
import CabinetBus.Text.Numeral

/-!
# Numerals and their digits

A numeral grows at its end, so its digits are told by quotients and remainders. A hexadecimal
digit has the value it was written for, whatever its case.
-/

namespace CabinetBus

namespace Text

/-- No numeral is shorter than one digit. -/
theorem digits_one (base n : Nat) : digits base 1 n = Nat.toDigits base n := by
  have hpos : 0 < (Nat.toDigits base n).length := Nat.length_toDigits_pos
  rw [digits, Nat.sub_eq_zero_of_le hpos]
  rfl

/-- The last digit stands behind the numeral of the others. -/
theorem digits_succ {base width : Nat} (hbase : 1 < base) (hwidth : 0 < width) (n : Nat) :
    digits base (width + 1) n = digits base width (n / base) ++ [(n % base).digitChar] := by
  by_cases h : n < base
  · obtain ⟨below, rfl⟩ : ∃ below, width = below + 1 := ⟨width - 1, by omega⟩
    simp [digits, Nat.toDigits_of_lt_base h, Nat.div_eq_of_lt h, Nat.mod_eq_of_lt h,
      ← List.replicate_succ']
  · rw [digits, digits, Nat.toDigits_of_base_le hbase (Nat.le_of_not_lt h)]
    simp

theorem hexValue?_digitChar {d : Nat} (h : d < 16) : hexValue? d.digitChar = some d := by
  revert d
  decide

theorem toLower_digitChar {d : Nat} (h : d < 16) : d.digitChar.toLower = d.digitChar := by
  revert d
  decide

/-- The numeral of four digits, one by one. -/
theorem digits_four {n : Nat} (h : n < 0x10000) :
    digits 16 4 n = [(n / 16 / 16 / 16).digitChar, (n / 16 / 16 % 16).digitChar,
      (n / 16 % 16).digitChar, (n % 16).digitChar] := by
  rw [digits_succ (by decide) (by decide), digits_succ (by decide) (by decide),
    digits_succ (by decide) (by decide), digits_one, Nat.toDigits_of_lt_base (by omega)]
  rfl

/-- The case of a letter makes no difference to its value as a digit. -/
theorem hexValue?_toLower (c : Char) : hexValue? c.toLower = hexValue? c := by
  have hupper : ∀ n < 26,
      hexValue? (Char.ofNat (n + 65)).toLower = hexValue? (Char.ofNat (n + 65)) := by decide
  by_cases h : c.val ≥ 'A'.val ∧ c.val ≤ 'Z'.val
  · have hlow : 65 ≤ c.toNat := UInt32.le_iff_toNat_le.mp h.1
    have hhigh : c.toNat ≤ 90 := UInt32.le_iff_toNat_le.mp h.2
    have hletter := hupper (c.toNat - 65) (by omega)
    rwa [Nat.sub_add_cancel hlow, Char.ofNat_toNat] at hletter
  · have hsame : c.toLower = c := dif_neg h
    rw [hsame]

/-- A decimal numeral starts with a zero only if it is that zero. -/
theorem eq_nil_of_toDigits {n : Nat} {rest : List Char} (h : Nat.toDigits 10 n = '0' :: rest) :
    rest = [] := by
  induction n using Nat.strongRecOn generalizing rest with
  | ind n ih =>
      by_cases hlt : n < 10
      · rw [Nat.toDigits_of_lt_base hlt] at h
        exact (List.cons.inj h).2.symm
      · rw [Nat.toDigits_of_base_le (by omega) (by omega)] at h
        obtain ⟨first, more, hfront⟩ := List.exists_cons_of_ne_nil
          (Nat.toDigits_ne_nil (n := n / 10) (b := 10))
        rw [hfront, List.cons_append] at h
        obtain ⟨rfl, _⟩ := List.cons.inj h
        have hmore := ih (n / 10) (by omega) hfront
        have hvalue := Nat.ofDigitChars_ten_toDigits (n := n / 10)
        rw [hfront, hmore] at hvalue
        have hzero : 0 = n / 10 := by simpa [Nat.ofDigitChars_cons] using hvalue
        omega

/-- A decimal numeral starts with a digit. -/
theorem exists_toDigits_eq_cons (n : Nat) :
    ∃ first rest, Nat.toDigits 10 n = first :: rest ∧ first.isDigit := by
  obtain ⟨first, rest, h⟩ := List.exists_cons_of_ne_nil (Nat.toDigits_ne_nil (n := n) (b := 10))
  have hmem : first ∈ Nat.toDigits 10 n := h ▸ List.mem_cons_self
  exact ⟨first, rest, h, Nat.isDigit_of_mem_toDigits (by decide) (by decide) hmem⟩

end Text

end CabinetBus
