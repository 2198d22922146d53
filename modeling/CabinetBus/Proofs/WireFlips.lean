-- SUMMARY: Which single bit flips of a wire frame unframing refuses, and the few it cannot notice.
import Mathlib.Data.LawfulXor.Basic
import CabinetBus.Proofs.Agreement
import CabinetBus.Proofs.ErrorDetection
import CabinetBus.Proofs.RoundTrip

/-!
# Flipped bits on the wire

The checksum covers the unescaped bytes, but a bit flips on the wire. Mostly this changes one
byte or two neighbours of the unescaped body, which the checksum refuses. A flip that removes
the escape marker of a pair, or makes an escape marker in front of a byte, also moves all that
follows by one place. The register then meets two bytes where it should meet one, or the other
way round, and for each bit there are two register values with which both lead to the same
register. Exactly then the damaged frame is accepted.
-/

namespace CabinetBus.Frame

open Checksum (feed ofBytes)

/-! ## Flips -/

/-- A byte with one bit flipped; bit `0` is the least significant. -/
def flipBit (b : UInt8) (bit : Fin 8) : UInt8 := b ^^^ UInt8.ofNat (1 <<< bit.val)

@[simp] theorem flipBit_flipBit (b : UInt8) (bit : Fin 8) : flipBit (flipBit b bit) bit = b :=
  xor_cancel_right ..

theorem flipBit_ne (b : UInt8) (bit : Fin 8) : flipBit b bit ≠ b := by
  have hmask : ∀ bit : Fin 8, UInt8.ofNat (1 <<< bit.val) ≠ 0 := by decide
  intro hsame
  exact hmask bit (xor_left_eq_self_iff.mp hsame)

/-! ## Blind registers -/

/-- A register for which an escape marker with this bit flipped counts as no more than the mask
on the byte behind it. -/
def blindRegister : Fin 8 → BitVec 16
  | 0 => 0x3B23
  | 1 => 0x2933
  | 2 => 0x0D13
  | 3 => 0x4553
  | 4 => 0x25CC
  | 5 => 0x14ED
  | 6 => 0x76AF
  | 7 => 0x4234

/-- A zero byte leaves one register besides zero as it is, so each blind register has a twin. -/
def blindRegisters (bit : Fin 8) : List (BitVec 16) :=
  [blindRegister bit, blindRegister bit ^^^ 0xF01F]

theorem feed_blindRegister (bit : Fin 8) :
    feed (blindRegister bit) (flipBit escapeMarker bit) =
      blindRegister bit ^^^ ofBytes escapeMask 0 := by
  revert bit
  decide +kernel

/-- No other registers are blind. -/
theorem mem_blindRegisters_iff (bit : Fin 8) (register : BitVec 16) :
    register ∈ blindRegisters bit ↔
      feed register (flipBit escapeMarker bit) = register ^^^ ofBytes escapeMask 0 := by
  have hmoved : feed (register ^^^ blindRegister bit) 0 =
      feed register (flipBit escapeMarker bit) ^^^
        (blindRegister bit ^^^ ofBytes escapeMask 0) := by
    rw [← feed_blindRegister, ← Checksum.feed_xor, UInt8.xor_self]
  have hfixed : feed register (flipBit escapeMarker bit) = register ^^^ ofBytes escapeMask 0 ↔
      feed (register ^^^ blindRegister bit) 0 = register ^^^ blindRegister bit := by
    have hcancel : register ^^^ blindRegister bit ^^^ (blindRegister bit ^^^ ofBytes escapeMask 0) =
        register ^^^ ofBytes escapeMask 0 := by
      rw [xor_assoc, xor_cancel_left]
    rw [hmoved, xor_eq_iff_left_eq, hcancel]
  rw [hfixed, Checksum.feed_zero_eq_self_iff, xor_eq_zero_iff, xor_eq_iff_left_eq, blindRegisters,
    List.mem_cons, List.mem_singleton, xor_comm (blindRegister bit)]

/-- Such a register cannot tell the damaged marker and the byte behind it from the byte that both
stand for. -/
theorem foldl_feed_eq_iff_blind (bit : Fin 8) (next : UInt8) (register : BitVec 16) :
    [flipBit escapeMarker bit, next].foldl feed register =
        [next ^^^ escapeMask].foldl feed register ↔
      register ∈ blindRegisters bit := by
  change feed (feed register (flipBit escapeMarker bit)) next =
    feed register (next ^^^ escapeMask) ↔ _
  rw [← xor_eq_zero_iff, ← Checksum.feed_xor, xor_cancel_left, Checksum.feed_eq_zero_iff,
    xor_eq_iff_left_eq, xor_comm (ofBytes _ _), mem_blindRegisters_iff]

/-! ## Spliced bodies -/

/-- A part of a body may be replaced by what leads the register to the same. -/
theorem of_splice_eq_iff {front old new back : Bytes} :
    Checksum.of (front ++ new ++ back) = Checksum.of (front ++ old ++ back) ↔
      new.foldl feed (Checksum.of front) = old.foldl feed (Checksum.of front) := by
  rw [Checksum.of, Checksum.of, List.foldl_append, List.foldl_append, List.foldl_append,
    List.foldl_append, Checksum.foldl_feed_inj]
  rfl

/-- As many other bytes, up to two, are noticed. -/
theorem of_splice_ne_zero {front old new back : Bytes}
    (h : Checksum.of (front ++ old ++ back) = 0) (hlen : new.length = old.length)
    (hshort : new.length ≤ 2) (hne : new ≠ old) : Checksum.of (front ++ new ++ back) ≠ 0 := by
  intro hzero
  exact foldl_feed_ne_of_short hlen hshort hne _ (of_splice_eq_iff.mp (hzero.trans h.symm))

/-! ## Escape markers on the wire -/

theorem xor_escapeMask_ne_escapeMarker {b : UInt8} (h : isDelimiter b = true) :
    b ^^^ escapeMask ≠ escapeMarker := by
  simp only [isDelimiter, Bool.or_eq_true, beq_iff_eq] at h
  rcases h with (rfl | rfl) | rfl <;> decide

/-- An escape marker on the wire has its partner behind it, which is not one itself. -/
theorem partner_of_escapeMarker {body front back : Bytes}
    (h : escape body = front ++ escapeMarker :: back) :
    ∃ partner rest, back = partner :: rest ∧ partner ≠ escapeMarker := by
  induction body generalizing front with
  | nil => simp at h
  | cons b body ih =>
      rw [escape_cons, escapeByte] at h
      split at h
      · rename_i hb
        match front with
        | [] =>
            obtain ⟨_, rfl⟩ := List.cons_eq_cons.mp h
            exact ⟨_, _, rfl, xor_escapeMask_ne_escapeMarker hb⟩
        | [_] =>
            obtain ⟨_, hrest⟩ := List.cons_eq_cons.mp h
            obtain ⟨hpartner, _⟩ := List.cons_eq_cons.mp hrest
            exact absurd hpartner (xor_escapeMask_ne_escapeMarker hb)
        | _ :: _ :: front =>
            obtain ⟨_, hrest⟩ := List.cons_eq_cons.mp h
            exact ih (List.cons_eq_cons.mp hrest).2
      · rename_i hb
        match front with
        | [] =>
            obtain ⟨rfl, _⟩ := List.cons_eq_cons.mp h
            exact absurd rfl hb
        | _ :: front => exact ih (List.cons_eq_cons.mp h).2

theorem unescape_append_of_settled {front : Bytes} (h : leavesEscape false front = false)
    (back : Bytes) : unescape (front ++ back) = unescape front ++ unescape back := by
  rw [← unescapeFrom_false, unescapeFrom_append, h, unescapeFrom_false, unescapeFrom_false]

theorem unescape_append_of_waiting {front : Bytes} (h : leavesEscape false front = true)
    (b : UInt8) (back : Bytes) :
    unescape (front ++ b :: back) = unescape front ++ (b ^^^ escapeMask) :: unescape back := by
  rw [← unescapeFrom_false, unescapeFrom_append, h, unescapeFrom_true_cons, unescapeFrom_false,
    unescapeFrom_false]

/-! ## Flips, by what they hit

Each of these starts from a body that leaves the register at zero. -/

section Hits

variable {front back : Bytes} {b next partner : UInt8} {bit : Fin 8}

/-- A flip in the second byte of a pair changes one byte. -/
theorem flip_of_waiting (hfront : leavesEscape false front = true)
    (hzero : Checksum.of (unescape (front ++ b :: back)) = 0) :
    Checksum.of (unescape (front ++ flipBit b bit :: back)) ≠ 0 := by
  rw [unescape_append_of_waiting hfront, List.append_cons] at hzero ⊢
  refine of_splice_ne_zero hzero rfl (Nat.le_succ 1) fun hsame => ?_
  exact flipBit_ne b bit ((UInt8.xor_left_inj escapeMask).mp (List.cons_eq_cons.mp hsame).1)

/-- A flip that neither hits nor makes an escape marker changes one byte. -/
theorem flip_of_plain (hfront : leavesEscape false front = false) (hb : b ≠ escapeMarker)
    (hflipped : flipBit b bit ≠ escapeMarker)
    (hzero : Checksum.of (unescape (front ++ b :: back)) = 0) :
    Checksum.of (unescape (front ++ flipBit b bit :: back)) ≠ 0 := by
  rw [unescape_append_of_settled hfront, unescape_plain hb, List.append_cons] at hzero
  rw [unescape_append_of_settled hfront, unescape_plain hflipped, List.append_cons]
  refine of_splice_ne_zero hzero rfl (Nat.le_succ 1) fun hsame => ?_
  exact flipBit_ne b bit (List.cons_eq_cons.mp hsame).1

/-- A flip that makes an escape marker of the last byte drops that byte. -/
theorem flip_of_last (hfront : leavesEscape false front = false)
    (hzero : Checksum.of (unescape (front ++ [flipBit escapeMarker bit])) = 0) :
    Checksum.of (unescape (front ++ [escapeMarker])) ≠ 0 := by
  have hmoved : ∀ bit, feed 0 (flipBit escapeMarker bit) ≠ 0 := by decide +kernel
  intro hdropped
  rw [unescape_append_of_settled hfront] at hdropped
  rw [unescape_append_of_settled hfront, unescape_plain (flipBit_ne escapeMarker bit), Checksum.of,
    List.foldl_append] at hzero
  change Checksum.of (unescape front ++ []) = 0 at hdropped
  change feed (Checksum.of (unescape front)) (flipBit escapeMarker bit) = 0 at hzero
  rw [List.append_nil] at hdropped
  rw [hdropped] at hzero
  exact hmoved bit hzero

/-- A flip that makes an escape marker before a pair changes the two bytes that come of it. -/
theorem flip_before_marker (hfront : leavesEscape false front = false) (hb : b ≠ escapeMarker)
    (hpartner : partner ≠ escapeMarker)
    (hzero : Checksum.of (unescape (front ++ b :: escapeMarker :: partner :: back)) = 0) :
    Checksum.of (unescape (front ++ escapeMarker :: escapeMarker :: partner :: back)) ≠ 0 := by
  have hbefore : unescape (front ++ b :: escapeMarker :: partner :: back) =
      unescape front ++ [b, partner ^^^ escapeMask] ++ unescape back := by
    rw [unescape_append_of_settled hfront, unescape_plain hb, unescape_pair]
    simp
  have hbehind : unescape (front ++ escapeMarker :: escapeMarker :: partner :: back) =
      unescape front ++ [escapeMarker ^^^ escapeMask, partner] ++ unescape back := by
    rw [unescape_append_of_settled hfront, unescape_pair, unescape_plain hpartner]
    simp
  rw [hbefore] at hzero
  rw [hbehind]
  refine of_splice_ne_zero hzero rfl (Nat.le_refl 2) fun hsame => ?_
  have hsecond : partner ^^^ escapeMask = partner :=
    (List.cons_eq_cons.mp (List.cons_eq_cons.mp hsame).2).1.symm
  exact absurd (xor_left_eq_self_iff.mp hsecond) (by decide)

/-- An escape marker and the byte one bit away from it, before a byte that is no escape marker:
a blind register cannot tell them apart. -/
theorem flip_between_marker_and_byte (hfront : leavesEscape false front = false)
    (hnext : next ≠ escapeMarker) :
    Checksum.of (unescape (front ++ flipBit escapeMarker bit :: next :: back)) =
        Checksum.of (unescape (front ++ escapeMarker :: next :: back)) ↔
      Checksum.of (unescape front) ∈ blindRegisters bit := by
  have hplain : unescape (front ++ flipBit escapeMarker bit :: next :: back) =
      unescape front ++ [flipBit escapeMarker bit, next] ++ unescape back := by
    rw [unescape_append_of_settled hfront, unescape_plain (flipBit_ne escapeMarker bit),
      unescape_plain hnext]
    simp
  have hpaired : unescape (front ++ escapeMarker :: next :: back) =
      unescape front ++ [next ^^^ escapeMask] ++ unescape back := by
    rw [unescape_append_of_settled hfront, unescape_pair]
    simp
  rw [hplain, hpaired, of_splice_eq_iff, foldl_feed_eq_iff_blind]

end Hits

/-! ## Unnoticed flips -/

/-- A flip goes unnoticed in the front byte of a pair, or where it makes one, if the register is
blind to it. -/
structure GoesUnnoticed (front : Bytes) (b : UInt8) (bit : Fin 8) (back : Bytes) : Prop where
  /-- The byte is not the partner of an escape marker. -/
  settled : leavesEscape false front = false
  /-- The flip removes an escape marker, or makes one that takes the next byte for its partner. -/
  misread : b = escapeMarker ∨
    flipBit b bit = escapeMarker ∧ ∃ next rest, back = next :: rest ∧ next ≠ escapeMarker
  /-- What came before the byte left the register at one of two values. -/
  blind : Checksum.of (unescape front) ∈ blindRegisters bit

/-- Where a flip makes an escape marker, it is noticed unless that takes a plain byte with it. -/
theorem of_unescape_made_marker_eq_zero_iff {body front back : Bytes} {bit : Fin 8}
    (hbody : escape body = front ++ flipBit escapeMarker bit :: back)
    (hfront : leavesEscape false front = false)
    (hzero : Checksum.of (unescape (front ++ flipBit escapeMarker bit :: back)) = 0) :
    Checksum.of (unescape (front ++ escapeMarker :: back)) = 0 ↔
      (∃ next rest, back = next :: rest ∧ next ≠ escapeMarker) ∧
        Checksum.of (unescape front) ∈ blindRegisters bit := by
  match back with
  | [] =>
      refine ⟨fun hdropped => absurd hdropped (flip_of_last hfront hzero), ?_⟩
      rintro ⟨⟨_, _, hnone, _⟩, _⟩
      cases hnone
  | next :: rest =>
      by_cases hnext : next = escapeMarker
      · subst hnext
        rw [List.append_cons] at hbody
        obtain ⟨partner, rest, rfl, hpartner⟩ := partner_of_escapeMarker hbody
        refine ⟨fun hpassed => absurd hpassed
          (flip_before_marker hfront (flipBit_ne escapeMarker bit) hpartner hzero), ?_⟩
        rintro ⟨⟨_, _, hmarker, hplain⟩, _⟩
        exact absurd (List.cons_eq_cons.mp hmarker).1.symm hplain
      · rw [← hzero, eq_comm, flip_between_marker_and_byte hfront hnext]
        exact ⟨fun hblind => ⟨⟨next, rest, rfl, hnext⟩, hblind⟩, And.right⟩

/-- The register notices every other flip. -/
theorem of_unescape_flipped_eq_zero_iff {body front back : Bytes} {b : UInt8} {bit : Fin 8}
    (hbody : escape body = front ++ b :: back)
    (hzero : Checksum.of (unescape (front ++ b :: back)) = 0) :
    Checksum.of (unescape (front ++ flipBit b bit :: back)) = 0 ↔
      GoesUnnoticed front b bit back := by
  -- The byte is the partner of a marker, a marker, made a marker, or none of these.
  cases hfront : leavesEscape false front with
  | true =>
      refine ⟨fun hflipped => absurd hflipped (flip_of_waiting hfront hzero), fun h => ?_⟩
      rw [h.settled] at hfront
      cases hfront
  | false =>
      by_cases hb : b = escapeMarker
      · subst hb
        obtain ⟨partner, rest, rfl, hpartner⟩ := partner_of_escapeMarker hbody
        rw [← hzero, flip_between_marker_and_byte hfront hpartner]
        exact ⟨fun hblind => ⟨hfront, .inl rfl, hblind⟩, GoesUnnoticed.blind⟩
      · by_cases hflipped : flipBit b bit = escapeMarker
        · obtain rfl : b = flipBit escapeMarker bit := by rw [← hflipped, flipBit_flipBit]
          rw [hflipped, of_unescape_made_marker_eq_zero_iff hbody hfront hzero]
          constructor
          · rintro ⟨htaken, hblind⟩
            exact ⟨hfront, .inr ⟨hflipped, htaken⟩, hblind⟩
          · intro h
            rcases h.misread with hmarker | ⟨_, htaken⟩
            · exact absurd hmarker hb
            · exact ⟨htaken, h.blind⟩
        · have hrefused := flip_of_plain hfront hb hflipped hzero
          refine ⟨fun hpassed => absurd hpassed hrefused, fun h => ?_⟩
          rcases h.misread with hmarker | ⟨hmarker, _⟩
          · exact absurd hmarker hb
          · exact absurd hmarker hflipped

/-! ## Answers of unframing -/

/-- Past the markers, and with room, the register alone decides. -/
theorem result_decodeInto_of_register {body target : Bytes} (h : 4 ≤ body.length)
    (hroom : (enclosed body).length ≤ target.length) :
    (Checksum.of (unescape body) = 0 →
      ∃ decoded, (decodeInto (enclosed body) target).result = .ok decoded) ∧
    (Checksum.of (unescape body) ≠ 0 → ∃ expected actual,
      (decodeInto (enclosed body) target).result = .error (.checksum expected actual)) := by
  obtain ⟨content, high, low, hcontent⟩ := exists_eq_append_pair (two_le_length_unescape h)
  rw [result_decodeInto_enclosed h, if_pos (length_unescape_le_target hroom), hcontent, verdict,
    checkChecksum_eq, Ne, Checksum.of_append_pair_eq_zero_iff]
  constructor
  · intro hsum
    rw [if_pos hsum]
    exact ⟨_, rfl⟩
  · intro hsum
    rw [if_neg hsum]
    exact ⟨_, _, rfl⟩

/-- What framing sends leaves the register at zero. -/
theorem of_unescape_escapedBody (content : Bytes) :
    Checksum.of (unescape (escapedBody content)) = 0 := by
  have hsum : Checksum.of content = Checksum.ofBytes _ _ := (ofBytes_eq_iff _ _ _).mpr rfl
  rw [unescape_escapedBody]
  exact (Checksum.of_append_pair_eq_zero_iff content _ _).mpr hsum

/-- One bit flipped between the markers of a frame with a content of two bytes or more. Given a
target as long as the frame, unframing refuses what is received with a checksum error, unless
the flip goes unnoticed; and then it is accepted. -/
theorem flipped_bit_refused_unless {buffer target front back : Bytes} {len : Nat} {b : UInt8}
    {bit : Fin 8} (hsent : (encode buffer len).result = .ok (enclosed (front ++ b :: back)))
    (hcontent : 2 ≤ (buffer.slice 1 len).length)
    (hroom : (enclosed (front ++ b :: back)).length ≤ target.length) :
    let received := enclosed (front ++ flipBit b bit :: back)
    (¬ GoesUnnoticed front b bit back → ∃ expected actual,
      (decodeInto received target).result = .error (.checksum expected actual)) ∧
    (GoesUnnoticed front b bit back →
      ∃ decoded, (decodeInto received target).result = .ok decoded) := by
  intro received
  obtain ⟨_, _, _, _, hwire⟩ := encode_eq_ok_iff.mp hsent
  rw [wireFrame_eq_enclosed, enclosed_inj] at hwire
  have hzero : Checksum.of (unescape (front ++ b :: back)) = 0 := by
    rw [hwire, of_unescape_escapedBody]
  have hlong := length_escapedBody (buffer.slice 1 len)
  rw [← hwire] at hlong
  have hlength : (front ++ flipBit b bit :: back).length = (front ++ b :: back).length := by
    simp
  have hanswers := @result_decodeInto_of_register (front ++ flipBit b bit :: back) target
    (by omega) (by rwa [length_enclosed, hlength, ← length_enclosed])
  rw [Ne, of_unescape_flipped_eq_zero_iff hwire.symm hzero] at hanswers
  exact hanswers.symm

/-- A flip that removes an escape marker, behind a register that is not blind to it and behind one
that is. -/
theorem flipped_bit_refused_unless_blind :
    let noticed : Bytes := [0x02, 0x99, 0x7C, 0x22, 0x9F, 0x3E, 0x03]
    let unnoticed : Bytes := [0x02, 0x59, 0xAE, 0x79, 0x22, 0x12, 0xF0, 0x03]
    (∃ expected actual, (decodeInto noticed (Bytes.zeros 7)).result =
      .error (.checksum expected actual)) ∧
    ∃ decoded, (decodeInto unnoticed (Bytes.zeros 8)).result = .ok decoded := by
  intro noticed unnoticed
  have hnoticed : ¬ GoesUnnoticed [0x99] 0x7D 0 [0x22, 0x9F, 0x3E] :=
    fun h => absurd h.blind (by decide +kernel)
  have hunnoticed : GoesUnnoticed [0x59, 0xAE] 0x7D 2 [0x22, 0x12, 0xF0] :=
    ⟨by decide, .inl rfl, by decide +kernel⟩
  have hsent : (encode ([0x00, 0x99, 0x02] ++ Bytes.zeros 4) 3).result =
      .ok (enclosed ([0x99] ++ 0x7D :: [0x22, 0x9F, 0x3E])) :=
    encode_eq_ok_iff.mpr (by decide +kernel)
  have hblind : (encode ([0x00, 0x59, 0xAE, 0x02] ++ Bytes.zeros 4) 4).result =
      .ok (enclosed ([0x59, 0xAE] ++ 0x7D :: [0x22, 0x12, 0xF0])) :=
    encode_eq_ok_iff.mpr (by decide +kernel)
  have hrefused := (@flipped_bit_refused_unless _ (Bytes.zeros 7) _ _ _ _ 0 hsent
    (by decide) (by decide)).1 hnoticed
  have haccepted := (@flipped_bit_refused_unless _ (Bytes.zeros 8) _ _ _ _ 2 hblind
    (by decide) (by decide)).2 hunnoticed
  exact ⟨hrefused, haccepted⟩

/-- A frame of which one escape marker is received with a flipped bit, and that is accepted. -/
theorem flipped_escape_marker_accepted :
    let buffer : Bytes := [0x00, 0x59, 0xAE, 0x02] ++ Bytes.zeros 4
    let wire : Bytes := [0x02, 0x59, 0xAE, 0x7D, 0x22, 0x12, 0xF0, 0x03]
    let target : Bytes := Bytes.zeros 8
    let received := wire.set 3 (flipBit 0x7D 2)
    (encode buffer 4).result = .ok wire ∧ 2 ≤ (buffer.slice 1 4).length ∧
    wire.length ≤ target.length ∧
    received = [0x02, 0x59, 0xAE, 0x79, 0x22, 0x12, 0xF0, 0x03] ∧
    (decodeInto received target).result = .ok received := by
  intro buffer wire target received
  have haccepted : (decodeInto [0x02, 0x59, 0xAE, 0x79, 0x22, 0x12, 0xF0, 0x03] target).result =
      .ok [0x02, 0x59, 0xAE, 0x79, 0x22, 0x12, 0xF0, 0x03] :=
    decodeInto_eq_ok_iff.mpr ⟨[0x59, 0xAE, 0x79, 0x22, 0x12, 0xF0], [0x59, 0xAE, 0x79, 0x22],
      by decide, rfl, by decide +kernel, by decide, by decide +kernel⟩
  exact ⟨encode_eq_ok_iff.mpr (by decide +kernel), by decide, by decide, by decide, haccepted⟩

end CabinetBus.Frame
