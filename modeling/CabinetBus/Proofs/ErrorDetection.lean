-- SUMMARY: The checksum refuses every frame damaged by a short burst or in an odd number of bits.
import CabinetBus.Proofs.ChecksumRegister
import CabinetBus.Proofs.Unframing

/-!
# Detected errors

Of two frames with the same ends that are both accepted, the difference leaves the checksum
register at zero. A burst of at most sixteen bits does not, since the register holds all of it
at once, and neither does a difference of odd weight, since the register keeps the parity. So
a frame that was damaged in one of these ways is refused, with the checksum that was computed
over it and the one that it carries.
-/

namespace CabinetBus.Frame

open Checksum (bits parity shift feed)

/-! ## Differences -/

/-- The bits in which two byte strings of one length differ, most significant bit of each byte
first. -/
def flips (left right : Bytes) : List Bool := bits (List.zipWith (· ^^^ ·) left right)

/-- All bits but at most `width` consecutive ones are clear. -/
def IsBurst (width : Nat) (pattern : List Bool) : Prop :=
  ∃ before burst behind, burst.length ≤ width ∧
    pattern = List.replicate before false ++ burst ++ List.replicate behind false

theorem flips_cons (a b : UInt8) (left right : Bytes) :
    flips (a :: left) (b :: right) = Checksum.bitsOf (a ^^^ b) ++ flips left right := rfl

theorem clear_of_not_mem {pattern : List Bool} (h : true ∉ pattern) (i : Nat) :
    pattern.getD i false = false := by
  rw [List.getD_eq_getElem?_getD]
  cases hbit : pattern[i]? with
  | none => rfl
  | some bit =>
      cases bit with
      | false => rfl
      | true => exact absurd (List.mem_of_getElem? hbit) h

/-- Bytes that differ, differ in a bit. -/
theorem true_mem_bitsOf {a b : UInt8} (h : a ≠ b) : true ∈ Checksum.bitsOf (a ^^^ b) := by
  refine Decidable.byContradiction fun hclear => ?_
  refine h (UInt8.xor_eq_zero_iff.mp (UInt8.toBitVec_inj.mp ?_))
  refine BitVec.eq_of_getMsbD_eq fun i _ => ?_
  rw [← Checksum.getD_bitsOf, clear_of_not_mem hclear]
  exact BitVec.getMsbD_zero.symm

/-- Byte strings of one length that differ, differ in a bit. -/
theorem true_mem_flips {left right : Bytes} (hlen : left.length = right.length)
    (h : left ≠ right) : true ∈ flips left right := by
  induction left generalizing right with
  | nil => exact absurd (List.length_eq_zero_iff.mp hlen.symm).symm h
  | cons a left ih =>
      obtain ⟨b, right, rfl⟩ := List.exists_cons_of_length_eq_add_one hlen.symm
      rw [flips_cons, List.mem_append]
      by_cases hfront : a = b
      · exact .inr (ih (Nat.succ.inj hlen) fun hrest => h (by rw [hfront, hrest]))
      · exact .inl (true_mem_bitsOf hfront)

/-! ## Differences that the register shows -/

/-- A register that is fed the difference of two byte strings is led to the difference of the
registers to which they lead. -/
theorem foldl_shift_flips {left right : Bytes} (h : left.length = right.length)
    (register : BitVec 16) :
    (flips left right).foldl shift 0 = left.foldl feed register ^^^ right.foldl feed register := by
  rw [flips, ← Checksum.foldl_feed, ← Checksum.foldl_feed_xor h, BitVec.xor_self]
  rfl

/-- A short burst does not leave the register at zero: the register holds all of it. -/
theorem foldl_shift_ne_zero_of_burst {pattern : List Bool} (hburst : IsBurst 16 pattern)
    (hset : true ∈ pattern) : pattern.foldl shift 0 ≠ 0 := by
  obtain ⟨before, burst, behind, hlength, rfl⟩ := hburst
  intro hzero
  rw [List.foldl_append, Checksum.foldl_shift_false_eq_zero_iff, List.foldl_append,
    (Checksum.foldl_shift_false_eq_zero_iff before 0).mpr rfl,
    Checksum.foldl_shift_eq_zero_iff hlength] at hzero
  have hmem : true ∈ burst := by simpa using hset
  obtain ⟨i, hi, hbit⟩ := List.getElem_of_mem hmem
  have hclear := hzero i (Nat.lt_of_lt_of_le hi hlength)
  rw [List.getD_eq_getElem?_getD, List.getElem?_eq_getElem hi, hbit] at hclear
  simp at hclear

/-- A difference of odd weight does not leave the register at zero. -/
theorem foldl_shift_ne_zero_of_odd {pattern : List Bool} (h : pattern.count true % 2 = 1) :
    pattern.foldl shift 0 ≠ 0 := by
  intro hzero
  have hparity := Checksum.parity_foldl_shift 0 pattern
  rw [hzero, (Checksum.parity_eq_true_iff pattern).mpr h] at hparity
  revert hparity
  decide

/-! ## Frames with the same ends -/

/-- A frame is accepted exactly if what stands between its ends leaves the register at zero. -/
theorem checkChecksum_eq_ok_iff {first last : UInt8} {body : Bytes} (h : 2 ≤ body.length) :
    checkChecksum (first :: body ++ [last]) = .ok () ↔ Checksum.of body = 0 := by
  obtain ⟨content, high, low, rfl⟩ := exists_eq_append_pair h
  rw [checkChecksum_eq, Checksum.of_append_pair_eq_zero_iff]
  split
  · rename_i heq
    exact ⟨fun _ => heq, fun _ => rfl⟩
  · rename_i hne
    refine ⟨fun herror => ?_, fun heq => absurd heq hne⟩
    cases herror

theorem exists_eq_ends {frame : Bytes} (h : 4 ≤ frame.length) :
    ∃ first body last, 2 ≤ body.length ∧ frame = first :: body ++ [last] := by
  match frame with
  | [] => cases h
  | first :: rest =>
      rcases List.eq_nil_or_concat rest with rfl | ⟨body, last, rfl⟩
      · simp at h
      · exact ⟨first, body, last, by simpa using h, by simp⟩

/-- Frames of four bytes and more have both checksums, and are refused if these differ. -/
theorem checkChecksum_of_length {frame : Bytes} (h : 4 ≤ frame.length) :
    ∃ expected actual, computedChecksum? frame = some expected ∧
      carriedChecksum? frame = some actual ∧
      checkChecksum frame =
        if expected = actual then .ok () else .error (.checksum expected actual) := by
  have hcomputed : computedChecksum? frame =
      some (Checksum.of (frame.slice 1 (frame.length - 3))) := if_neg (Nat.not_lt.mpr h)
  have hcarried : ∃ actual, carriedChecksum? frame = some actual := by
    have hlen : (frame.drop (frame.length - 3)).length = 3 := by
      rw [List.length_drop]
      omega
    match hdrop : frame.drop (frame.length - 3), hlen with
    | [high, low, last], _ => exact ⟨_, by rw [carriedChecksum?, hdrop]⟩
  obtain ⟨actual, hcarried⟩ := hcarried
  exact ⟨_, actual, hcomputed, hcarried, by rw [checkChecksum, hcomputed, hcarried]⟩

theorem length_of_accepted {frame : Bytes} (h : checkChecksum frame = .ok ()) :
    4 ≤ frame.length := by
  refine Nat.le_of_not_lt fun hshort => ?_
  rw [checkChecksum, computedChecksum?, if_pos hshort] at h
  cases h

/-- The difference of two accepted frames with the same ends leaves the register at zero. -/
theorem foldl_shift_flips_of_accepted {left right : Bytes} (hleft : checkChecksum left = .ok ())
    (hright : checkChecksum right = .ok ()) (hlength : left.length = right.length)
    (hfirst : left.head? = right.head?) (hlast : left.getLast? = right.getLast?) :
    (flips left right).foldl shift 0 = 0 := by
  obtain ⟨first, body, last, hbody, rfl⟩ := exists_eq_ends (length_of_accepted hleft)
  obtain ⟨first', body', last', hbody', rfl⟩ := exists_eq_ends (length_of_accepted hright)
  obtain rfl : first = first' := Option.some.inj hfirst
  rw [List.getLast?_concat, List.getLast?_concat] at hlast
  obtain rfl : last = last' := Option.some.inj hlast
  have hlen : body.length = body'.length := by simpa using hlength
  rw [checkChecksum_eq_ok_iff hbody] at hleft
  rw [checkChecksum_eq_ok_iff hbody'] at hright
  have hmiddle : (flips body body').foldl shift 0 = 0 := by
    rw [foldl_shift_flips hlen Checksum.initial]
    change Checksum.of body ^^^ Checksum.of body' = 0
    rw [hleft, hright, BitVec.xor_self]
    rfl
  have hends : flips (first :: body ++ [last]) (first :: body' ++ [last]) =
      Checksum.bitsOf (first ^^^ first) ++ flips body body' ++ Checksum.bitsOf (last ^^^ last) := by
    rw [flips, List.zipWith_append (by simpa using hlen)]
    simp [flips]
  have hsame (b : UInt8) : (Checksum.bitsOf (b ^^^ b)).foldl shift 0 = 0 := by
    rw [UInt8.xor_self]
    rfl
  rw [hends, List.foldl_append, List.foldl_append, hsame, hmiddle, hsame]

/-- As many other bytes, up to two, never lead a register to the same. -/
theorem foldl_feed_ne_of_short {left right : Bytes} (hlen : left.length = right.length)
    (hshort : left.length ≤ 2) (hne : left ≠ right) (register : BitVec 16) :
    left.foldl feed register ≠ right.foldl feed register := by
  intro hsame
  have hburst : IsBurst 16 (flips left right) := by
    refine ⟨0, flips left right, 0, ?_, by simp⟩
    rw [flips, Checksum.length_bits, List.length_zipWith]
    omega
  refine foldl_shift_ne_zero_of_burst hburst (true_mem_flips hlen hne) ?_
  rw [foldl_shift_flips hlen register, hsame, BitVec.xor_self]
  rfl

/-! ## Damaged frames -/

/-- An accepted frame that is damaged between its ends, within sixteen consecutive bits or in an
odd number of bits, is refused, and the answer names the checksum computed over it and the one
that it carries. -/
theorem damaged_frame_refused {frame received : Bytes} (haccepted : checkChecksum frame = .ok ())
    (hlength : received.length = frame.length) (hfirst : received.head? = frame.head?)
    (hlast : received.getLast? = frame.getLast?)
    (hdamage : received ≠ frame ∧ IsBurst 16 (flips frame received) ∨
      (flips frame received).count true % 2 = 1) :
    ∃ expected actual, computedChecksum? received = some expected ∧
      carriedChecksum? received = some actual ∧
      checkChecksum received = .error (.checksum expected actual) := by
  have hlong : 4 ≤ received.length := by
    rw [hlength]
    exact length_of_accepted haccepted
  obtain ⟨expected, actual, hexpected, hactual, hverdict⟩ := checkChecksum_of_length hlong
  refine ⟨expected, actual, hexpected, hactual, ?_⟩
  rw [hverdict, if_neg]
  intro hsame
  rw [if_pos hsame] at hverdict
  have hzero := foldl_shift_flips_of_accepted haccepted hverdict hlength.symm hfirst.symm hlast.symm
  rcases hdamage with ⟨hne, hburst⟩ | hodd
  · exact foldl_shift_ne_zero_of_burst hburst (true_mem_flips hlength.symm hne.symm) hzero
  · exact foldl_shift_ne_zero_of_odd hodd hzero

/-- A burst of sixteen bits that ends in the checksum, and three bits far apart. -/
theorem damaged_frame_refused_across_bytes :
    let frame : Bytes := [0x02, 0x13, 0x00, 0x4B, 0x2F, 0x03]
    let burst : Bytes := [0x02, 0x1A, 0x5A, 0xDB, 0x2F, 0x03]
    let spread : Bytes := [0x02, 0x93, 0x10, 0x4B, 0x2E, 0x03]
    checkChecksum frame = .ok () ∧ IsBurst 16 (flips frame burst) ∧
    (flips frame spread).count true = 3 ∧
    (∃ expected actual, checkChecksum burst = .error (.checksum expected actual)) ∧
    (∃ expected actual, checkChecksum spread = .error (.checksum expected actual)) := by
  intro frame burst spread
  have haccepted : checkChecksum frame = .ok () :=
    (@checkChecksum_eq_ok_iff 0x02 0x03 [0x13, 0x00, 0x4B, 0x2F] (by decide)).mpr
      (by decide +kernel)
  have hburst : IsBurst 16 (flips frame burst) :=
    ⟨12, [true, false, false, true, false, true, false, true, true, false, true, false,
      true, false, false, true], 20, by decide, by decide⟩
  obtain ⟨_, _, _, _, hfirst⟩ := @damaged_frame_refused frame burst haccepted
    (by decide) (by decide) (by decide) (.inl ⟨by decide, hburst⟩)
  obtain ⟨_, _, _, _, hsecond⟩ := @damaged_frame_refused frame spread haccepted
    (by decide) (by decide) (by decide) (.inr (by decide))
  exact ⟨haccepted, hburst, by decide, ⟨_, _, hfirst⟩, ⟨_, _, hsecond⟩⟩

end CabinetBus.Frame
