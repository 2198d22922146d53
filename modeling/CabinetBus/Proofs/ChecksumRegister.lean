-- SUMMARY: The checksum register is linear, loses nothing it is fed at once, and keeps the parity.
import CabinetBus.Frame.Checksum

/-!
# The checksum register

Feeding bits to the register is linear over exclusive or. Up to sixteen bits bring a register
to zero only if they are the bits that stand at its front, and then zeros. So a byte string is
followed by its own checksum exactly if the register ends at zero, and the register determines
what it was before any bytes that are known. A zero byte leaves two registers as they are, and
moves all others. The register also keeps the parity of all it is fed.
-/

namespace CabinetBus.Frame.Checksum

/-! ## Bits -/

/-- The bits of a byte string in the order in which they are fed. -/
def bits (bytes : Bytes) : List Bool := bytes.flatMap bitsOf

@[simp] theorem bits_nil : bits [] = [] := rfl

@[simp] theorem bits_cons (b : UInt8) (rest : Bytes) : bits (b :: rest) = bitsOf b ++ bits rest :=
  rfl

@[simp] theorem bits_append (left right : Bytes) :
    bits (left ++ right) = bits left ++ bits right :=
  List.flatMap_append

@[simp] theorem length_bitsOf (b : UInt8) : (bitsOf b).length = 8 := rfl

@[simp] theorem length_bits (bytes : Bytes) : (bits bytes).length = 8 * bytes.length := by
  induction bytes with
  | nil => rfl
  | cons b rest ih =>
      rw [bits_cons, List.length_append, length_bitsOf, ih, List.length_cons]
      omega

theorem getD_bitsOf (b : UInt8) (i : Nat) : (bitsOf b).getD i false = b.toBitVec.getMsbD i := by
  match i with
  | 0 | 1 | 2 | 3 | 4 | 5 | 6 | 7 => rfl
  | i + 8 =>
      rw [BitVec.getMsbD_of_ge _ _ (Nat.le_add_left 8 i)]
      rfl

/-- Feeding bytes is feeding their bits. -/
theorem foldl_feed (register : BitVec 16) (bytes : Bytes) :
    bytes.foldl feed register = (bits bytes).foldl shift register := by
  induction bytes generalizing register with
  | nil => rfl
  | cons b rest ih =>
      rw [List.foldl_cons, bits_cons, List.foldl_append, ih]
      rfl

/-! ## Linearity -/

/-- What is added to a shifted register, by the sum of the bits shifted out and fed in. -/
def feedback (bit : Bool) : BitVec 16 := if bit then generator else 0

theorem shift_eq (register : BitVec 16) (bit : Bool) :
    shift register bit = register <<< 1 ^^^ feedback (register.msb ^^ bit) := by
  unfold shift feedback
  cases register.msb <;> cases bit <;> simp

theorem feedback_xor (a b : Bool) : feedback (a ^^ b) = feedback a ^^^ feedback b := by
  cases a <;> cases b <;> decide

theorem shift_xor (left right : BitVec 16) (a b : Bool) :
    shift (left ^^^ right) (a ^^ b) = shift left a ^^^ shift right b := by
  simp only [shift_eq, BitVec.msb_xor, BitVec.shiftLeft_xor_distrib, feedback_xor]
  ac_rfl

/-- Steps that are linear one by one are linear in a row. -/
theorem foldl_xor {α : Type} {step : BitVec 16 → α → BitVec 16} {sum : α → α → α}
    (hstep : ∀ r s a b, step (r ^^^ s) (sum a b) = step r a ^^^ step s b) {left right : List α}
    (h : left.length = right.length) (r s : BitVec 16) :
    (List.zipWith sum left right).foldl step (r ^^^ s) =
      left.foldl step r ^^^ right.foldl step s := by
  induction left generalizing right r s with
  | nil =>
      rw [List.length_eq_zero_iff.mp h.symm]
      rfl
  | cons a left ih =>
      obtain ⟨b, right, rfl⟩ := List.exists_cons_of_length_eq_add_one h.symm
      rw [List.zipWith_cons_cons, List.foldl_cons, hstep, ih (Nat.succ.inj h)]
      rfl

theorem bitsOf_xor (a b : UInt8) : bitsOf (a ^^^ b) = List.zipWith xor (bitsOf a) (bitsOf b) := by
  simp [bitsOf]

theorem feed_xor (r s : BitVec 16) (a b : UInt8) :
    feed (r ^^^ s) (a ^^^ b) = feed r a ^^^ feed s b := by
  rw [feed, bitsOf_xor]
  exact foldl_xor shift_xor (by rw [length_bitsOf, length_bitsOf]) r s

/-- Feeding byte strings of the same length is linear. -/
theorem foldl_feed_xor {left right : Bytes} (h : left.length = right.length) (r s : BitVec 16) :
    (List.zipWith (· ^^^ ·) left right).foldl feed (r ^^^ s) =
      left.foldl feed r ^^^ right.foldl feed s :=
  foldl_xor feed_xor h r s

/-! ## Coming to zero -/

/-- A register comes to zero by one bit only if no generator is added: the bit is the one at its
front, and the others are zero. -/
theorem getMsbD_shift_iff {register : BitVec 16} {bit : Bool} {rest : List Bool}
    (h : rest.length < 16) :
    (∀ i < 16, (shift register bit).getMsbD i = rest.getD i false) ↔
      ∀ i < 16, register.getMsbD i = (bit :: rest).getD i false := by
  have hend : rest.getD 15 false = false := by
    rw [List.getD_eq_getElem?_getD, List.getElem?_eq_none (by omega)]
    rfl
  have hplain (hfront : register.msb = bit) : shift register bit = register <<< 1 := by
    rw [shift_eq, hfront, Bool.xor_self]
    exact BitVec.xor_zero
  constructor
  · intro hshift i hi
    have hfront : register.msb = bit := by
      have hlast := hshift 15 (by decide)
      rw [hend, shift_eq] at hlast
      revert hlast
      cases register.msb <;> cases bit <;> simp [feedback, generator]
    match i with
    | 0 => exact hfront
    | i + 1 =>
        have hnext := hshift i (by omega)
        rw [hplain hfront, BitVec.getMsbD_shiftLeft] at hnext
        exact hnext
  · intro hregister i hi
    rw [hplain (hregister 0 (by decide)), BitVec.getMsbD_shiftLeft]
    by_cases hlast : i = 15
    · subst hlast
      rw [hend]
      exact BitVec.getMsbD_of_ge _ _ (Nat.le_refl 16)
    · exact hregister (i + 1) (by omega)

/-- At most sixteen bits bring a register to zero only if they stand at its front before zeros. -/
theorem foldl_shift_eq_zero_iff {feeding : List Bool} (h : feeding.length ≤ 16)
    (register : BitVec 16) :
    feeding.foldl shift register = 0 ↔
      ∀ i < 16, register.getMsbD i = feeding.getD i false := by
  induction feeding generalizing register with
  | nil =>
      constructor
      · rintro rfl i _
        simp
      · intro hzero
        exact BitVec.eq_of_getMsbD_eq fun i hi => (hzero i hi).trans BitVec.getMsbD_zero.symm
  | cons bit rest ih =>
      rw [List.length_cons] at h
      rw [List.foldl_cons, ih (by omega), getMsbD_shift_iff (by omega)]

/-- There is one register that up to sixteen bits bring to zero: their word. -/
theorem foldl_shift_eq_zero_iff_eq {feeding : List Bool} {word : BitVec 16}
    (h : feeding.length ≤ 16) (hword : ∀ i < 16, word.getMsbD i = feeding.getD i false)
    (register : BitVec 16) : feeding.foldl shift register = 0 ↔ register = word := by
  rw [foldl_shift_eq_zero_iff h]
  constructor
  · intro hregister
    exact BitVec.eq_of_getMsbD_eq fun i hi => (hregister i hi).trans (hword i hi).symm
  · rintro rfl
    exact hword

theorem getMsbD_ofBytes (high low : UInt8) (i : Nat) :
    (ofBytes high low).getMsbD i =
      if 8 ≤ i then low.toBitVec.getMsbD (i - 8) else high.toBitVec.getMsbD i :=
  BitVec.getMsbD_append

/-- A register that one byte brings to zero holds that byte before a zero byte. -/
theorem feed_eq_zero_iff (register : BitVec 16) (b : UInt8) :
    feed register b = 0 ↔ register = ofBytes b 0 := by
  refine foldl_shift_eq_zero_iff_eq (by simp) (fun i _ => ?_) register
  rw [getD_bitsOf, getMsbD_ofBytes]
  split
  · rename_i hi
    rw [BitVec.getMsbD_of_ge _ _ hi]
    exact BitVec.getMsbD_zero
  · rfl

/-- A register that two bytes bring to zero holds those two bytes. -/
theorem foldl_feed_pair_eq_zero_iff (register : BitVec 16) (high low : UInt8) :
    [high, low].foldl feed register = 0 ↔ register = ofBytes high low := by
  rw [foldl_feed]
  refine foldl_shift_eq_zero_iff_eq (by simp) (fun i _ => ?_) register
  rw [getMsbD_ofBytes, bits_cons, List.getD_eq_getElem?_getD]
  split
  · rename_i hi
    rw [List.getElem?_append_right hi, ← List.getD_eq_getElem?_getD, bits_cons, bits_nil,
      List.append_nil, getD_bitsOf]
    rfl
  · rename_i hi
    rw [List.getElem?_append_left (by simpa using hi), ← List.getD_eq_getElem?_getD, getD_bitsOf]

/-- Bytes are followed by their checksum exactly if both together leave the register at zero. -/
theorem of_append_pair_eq_zero_iff (content : Bytes) (high low : UInt8) :
    of (content ++ [high, low]) = 0 ↔ of content = ofBytes high low := by
  rw [of, List.foldl_append, foldl_feed_pair_eq_zero_iff]
  rfl

/-- Zeros leave a register at zero only if it was there. -/
theorem foldl_shift_false_eq_zero_iff (count : Nat) (register : BitVec 16) :
    (List.replicate count false).foldl shift register = 0 ↔ register = 0 := by
  induction count generalizing register with
  | zero => rfl
  | succ count ih =>
      rw [List.replicate_succ, List.foldl_cons, ih]
      have hone : [false].length ≤ 16 := by decide
      refine foldl_shift_eq_zero_iff_eq hone (fun i _ => ?_) register
      cases i <;> simp

theorem bits_zeros (count : Nat) : bits (Bytes.zeros count) = List.replicate (8 * count) false := by
  induction count with
  | zero => rfl
  | succ count ih =>
      rw [Bytes.zeros, List.replicate_succ, bits_cons, ← Bytes.zeros, ih, Nat.mul_succ,
        Nat.add_comm]
      exact List.replicate_append_replicate (n := 8)

/-- No bytes lead two registers together. -/
theorem foldl_feed_inj {r s : BitVec 16} {bytes : Bytes} :
    bytes.foldl feed r = bytes.foldl feed s ↔ r = s := by
  have hzeros : List.zipWith (· ^^^ ·) bytes bytes = Bytes.zeros bytes.length := by
    rw [List.zipWith_self, Bytes.zeros, List.eq_replicate_iff]
    simp
  rw [← BitVec.xor_eq_zero_iff, ← foldl_feed_xor rfl, hzeros, foldl_feed, bits_zeros,
    ← BitVec.xor_eq_zero_iff (x := r)]
  exact foldl_shift_false_eq_zero_iff _ _

/-! ## Zero bytes -/

/-- A zero byte moves up what the register holds in its low byte. -/
theorem feed_low (low : BitVec 8) : feed (0#8 ++ low) 0 = low ++ 0#8 := by
  revert low
  decide +kernel

/-- A zero byte leaves the register as it is only with one of two high bytes. -/
theorem high_of_fixed {high low : BitVec 8} (h : feed (high ++ 0#8) 0 = (high ^^^ low) ++ low) :
    high = 0 ∧ low = 0 ∨ high = 0xF0 ∧ low = 0x1F := by
  -- The high byte fixes the low one, so that the high bytes are all there is to try.
  have hhigh : ∀ high : BitVec 8,
      let low := (feed (high ++ 0#8) 0).extractLsb' 0 8
      feed (high ++ 0#8) 0 = (high ^^^ low) ++ low →
        high = 0 ∧ low = 0 ∨ high = 0xF0 ∧ low = 0x1F := by
    decide +kernel
  have hlow : (feed (high ++ 0#8) 0).extractLsb' 0 8 = low := by
    rw [h, BitVec.extractLsb'_append_eq_right]
  have hfixed := hhigh high
  rw [hlow] at hfixed
  exact hfixed h

/-- A zero byte moves all but two registers. -/
theorem feed_zero_eq_self_iff (register : BitVec 16) :
    feed register 0 = register ↔ register = 0 ∨ register = 0xF01F := by
  constructor
  · intro h
    obtain ⟨high, low, rfl⟩ : ∃ high low : BitVec 8, register = high ++ low :=
      ⟨_, _, (@BitVec.extractLsb'_append_extractLsb' 8 8 register).symm⟩
    have hparts : high ++ low = (high ++ 0#8) ^^^ (0#8 ++ low) := by
      rw [BitVec.xor_append, BitVec.xor_zero, BitVec.zero_xor]
    have hmoved : feed (high ++ low) 0 = feed (high ++ 0#8) 0 ^^^ (low ++ 0#8) := by
      rw [← feed_low low, ← feed_xor, ← hparts]
      rfl
    have hhigh : feed (high ++ 0#8) 0 = (high ^^^ low) ++ low := by
      calc feed (high ++ 0#8) 0
          = feed (high ++ low) 0 ^^^ (low ++ 0#8) := by
            rw [hmoved, BitVec.xor_assoc, BitVec.xor_self, BitVec.xor_zero]
        _ = (high ^^^ low) ++ low := by rw [h, BitVec.xor_append, BitVec.xor_zero]
    rcases high_of_fixed hhigh with ⟨rfl, rfl⟩ | ⟨rfl, rfl⟩
    · exact .inl rfl
    · exact .inr rfl
  · rintro (rfl | rfl) <;> decide +kernel

/-! ## Parity -/

/-- Whether an odd number of bits is set. -/
def parity (bits : List Bool) : Bool := bits.foldr xor false

theorem parity_append (left right : List Bool) :
    parity (left ++ right) = (parity left ^^ parity right) := by
  induction left with
  | nil => simp [parity]
  | cons a left ih =>
      rw [List.cons_append, parity, List.foldr_cons, ← parity, ih, ← Bool.xor_assoc]
      rfl

theorem parity_eq_true_iff (bits : List Bool) : parity bits = true ↔ bits.count true % 2 = 1 := by
  induction bits with
  | nil => simp [parity]
  | cons a rest ih =>
      rw [parity, List.foldr_cons, ← parity]
      cases a with
      | false => simpa using ih
      | true =>
          rw [List.count_cons_self, Bool.true_xor, Bool.not_eq_true', ← Bool.not_eq_true, ih]
          omega

/-- The bits of a register, most significant first. -/
def bitsOfRegister (register : BitVec 16) : List Bool := (List.range 16).map register.getMsbD

theorem parity_xor (left right : BitVec 16) :
    parity (bitsOfRegister (left ^^^ right)) =
      (parity (bitsOfRegister left) ^^ parity (bitsOfRegister right)) := by
  have hmap (indices : List Nat) : parity (indices.map (left ^^^ right).getMsbD) =
      (parity (indices.map left.getMsbD) ^^ parity (indices.map right.getMsbD)) := by
    induction indices with
    | nil => rfl
    | cons i rest ih =>
        simp only [parity, List.map_cons, List.foldr_cons] at ih ⊢
        rw [ih, BitVec.getMsbD_xor, Bool.xor_assoc, Bool.xor_assoc,
          Bool.xor_left_comm (right.getMsbD i)]
  exact hmap _

theorem parity_shiftLeft (register : BitVec 16) :
    parity (bitsOfRegister (register <<< 1)) =
      (parity (bitsOfRegister register) ^^ register.msb) := by
  have hfront : parity ((List.range 17).map register.getMsbD) =
      (register.msb ^^ parity (bitsOfRegister (register <<< 1))) := by
    have hmoved : bitsOfRegister (register <<< 1) =
        (List.range 16).map (register.getMsbD ∘ Nat.succ) :=
      List.map_congr_left fun i _ => by rw [BitVec.getMsbD_shiftLeft]; rfl
    rw [List.range_succ_eq_map, List.map_cons, List.map_map, hmoved]
    rfl
  have hback : parity ((List.range 17).map register.getMsbD) =
      parity (bitsOfRegister register) := by
    rw [List.range_succ, List.map_append, parity_append, ← bitsOfRegister, List.map_singleton,
      BitVec.getMsbD_of_ge register 16 (Nat.le_refl 16)]
    exact Bool.xor_false _
  rw [← hback, hfront, Bool.xor_comm, ← Bool.xor_assoc, Bool.xor_self, Bool.false_xor]

/-- A register takes over the parity of every bit it is fed, since the generator has an odd
number of bits beside the one shifted out. -/
theorem parity_shift (register : BitVec 16) (bit : Bool) :
    parity (bitsOfRegister (shift register bit)) = (parity (bitsOfRegister register) ^^ bit) := by
  rw [shift_eq, parity_xor, parity_shiftLeft]
  have hfeedback (b : Bool) : parity (bitsOfRegister (feedback b)) = b := by
    cases b <;> decide
  rw [hfeedback]
  cases register.msb <;> cases bit <;> simp

theorem parity_foldl_shift (register : BitVec 16) (feeding : List Bool) :
    parity (bitsOfRegister (feeding.foldl shift register)) =
      (parity (bitsOfRegister register) ^^ parity feeding) := by
  induction feeding generalizing register with
  | nil => simp [parity]
  | cons bit rest ih =>
      rw [List.foldl_cons, ih, parity_shift, Bool.xor_assoc]
      rfl

end CabinetBus.Frame.Checksum
