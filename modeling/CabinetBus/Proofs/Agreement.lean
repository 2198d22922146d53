-- SUMMARY: Unframing in place and into a target give the same answer, up to a flipped end marker.
import CabinetBus.Proofs.FrameShape

/-!
# Agreement of the two unframings

Both forms of unframing refuse the same frames with the same error, since neither the
markers on the wire nor the checksum look at what becomes of the end marker. Of a frame
that is accepted they give the same bytes but for the last: in place the end marker is
set anew, into a target it is unescaped with the body, and flipped if an escape marker
waits for it.
-/

namespace CabinetBus.Frame

/-- The last byte of an unescaped frame takes no part in the verdict. -/
theorem verdict_change_last {first last other : UInt8} {body : Bytes} (h : 2 ≤ body.length) :
    verdict (first :: body ++ [other]) =
      (verdict (first :: body ++ [last])).map fun decoded => decoded.dropLast ++ [other] := by
  obtain ⟨content, high, low, rfl⟩ := exists_eq_append_pair h
  rw [verdict, verdict, checkChecksum_eq, checkChecksum_eq]
  split
  · simp only [Except.map, List.dropLast_concat]
  · rfl

/-- A target as long as the source has room for what is unframed. -/
theorem length_unescape_le_target {body target : Bytes}
    (h : (enclosed body).length ≤ target.length) :
    (unescape body).length + 2 ≤ target.length := by
  have hshrinks := length_unescapeFrom_le false body
  rw [unescapeFrom_false] at hshrinks
  rw [length_enclosed] at h
  exact Nat.le_trans (Nat.add_le_add_right hshrinks 2) h

/-- The answer into a target is the one in place, with the end marker as unescaping leaves it. -/
theorem result_decodeInto_eq_map_decode {wire target : Bytes}
    (h : wire.length ≤ target.length) :
    (decodeInto wire target).result =
      (decode wire).result.map fun decoded =>
        decoded.dropLast ++ [closing (leavesEscape false wire.dropLast)] := by
  cases hmarkers : checkMarkers wire with
  | error e =>
      simp only [decode, decodeInto, hmarkers]
      rfl
  | ok =>
      obtain ⟨body, hbody, rfl⟩ := (checkMarkers_eq_ok_iff wire).mp hmarkers
      rw [result_decodeInto_enclosed hbody, if_pos (length_unescape_le_target h),
        decode_enclosed hbody, leavesEscape_dropLast_enclosed]
      exact verdict_change_last (two_le_length_unescape hbody)

/-- An unframed frame ends in the end marker, so setting that last changes nothing. -/
theorem dropLast_append_closing_iff {wire decoded : Bytes} {escaped : Bool}
    (h : (decode wire).result = .ok decoded) :
    decoded.dropLast ++ [closing escaped] = decoded ↔ escaped = false := by
  obtain ⟨_, content, _, _, _, rfl⟩ := decode_eq_ok_iff.mp h
  rw [← closing_eq_endMarker_iff, unframed, enclosed, List.dropLast_concat,
    List.append_cancel_left_eq, List.cons_eq_cons]
  exact ⟨And.left, fun heq => ⟨heq, rfl⟩⟩

/-- The two unframings, given a target as long as the wire frame. They fail alike, with the same
error. What one accepts the other accepts, with the same bytes before the end marker; and all
bytes are the same exactly if no escape marker waits before the end marker. -/
theorem unframings_agree_iff {wire target : Bytes} (h : wire.length ≤ target.length) :
    (∀ e, (decodeInto wire target).result = .error e ↔ (decode wire).result = .error e) ∧
    (∀ decoded, (decode wire).result = .ok decoded →
      (decodeInto wire target).result =
        .ok (decoded.dropLast ++ [closing (leavesEscape false wire.dropLast)])) ∧
    ((decodeInto wire target).result = (decode wire).result ↔
      (∃ e, (decode wire).result = .error e) ∨ leavesEscape false wire.dropLast = false) := by
  rw [result_decodeInto_eq_map_decode h]
  cases hplace : (decode wire).result with
  | error e =>
      refine ⟨fun other => Iff.rfl, fun decoded hok => ?_, fun _ => .inl ⟨e, rfl⟩, fun _ => rfl⟩
      cases hok
  | ok decoded =>
      refine ⟨fun e => ?_, fun other hok => ?_, ?_⟩
      · constructor <;> intro herror <;> cases herror
      · cases hok
        rfl
      · rw [Except.map, Except.ok.injEq, dropLast_append_closing_iff hplace]
        constructor
        · exact .inr
        · rintro (⟨e, herror⟩ | hwaits)
          · cases herror
          · exact hwaits

/-- An escape marker waits before the end marker, and the checksum is wrong: both say so. -/
theorem unframings_agree_iff_wrong_checksum :
    let wire : Bytes := [0x02, 0x10, 0xF3, 0xC0, 0x7D, 0x03]
    leavesEscape false wire.dropLast = true ∧
    (decode wire).result = .error (.checksum 0xF3C1 0xF3C0) ∧
    (decodeInto wire (Bytes.zeros 6)).result = .error (.checksum 0xF3C1 0xF3C0) := by
  intro wire
  obtain ⟨hfail, _, _⟩ := @unframings_agree_iff wire (Bytes.zeros 6) (by decide)
  have hplace : (decode wire).result = .error (.checksum 0xF3C1 0xF3C0) :=
    congrArg OnBuffer.result (@decode_enclosed [0x10, 0xF3, 0xC0, 0x7D] (by decide))
  exact ⟨by decide, hplace, (hfail _).mpr hplace⟩

/-- The smallest frame before whose end marker an escape marker waits. In place it ends in the
end marker; into a target it ends in `0x23`. -/
theorem unframings_differ_behind_waiting_escape :
    let wire : Bytes := [0x02, 0x10, 0xF3, 0xC1, 0x7D, 0x03]
    let target : Bytes := Bytes.zeros 6
    wire.length ≤ target.length ∧
    (decode wire).result = .ok [0x02, 0x10, 0xF3, 0xC1, 0x03] ∧
    (decodeInto wire target).result = .ok [0x02, 0x10, 0xF3, 0xC1, 0x23] ∧
    (decodeInto wire target).result ≠ (decode wire).result := by
  intro wire target
  have hplace : (decode wire).result = .ok [0x02, 0x10, 0xF3, 0xC1, 0x03] :=
    decode_eq_ok_iff.mpr ⟨[0x10, 0xF3, 0xC1, 0x7D], [0x10], by decide, rfl, by decide, by decide⟩
  have hinto : (decodeInto wire target).result = .ok [0x02, 0x10, 0xF3, 0xC1, 0x23] :=
    decodeInto_eq_ok_iff.mpr
      ⟨[0x10, 0xF3, 0xC1, 0x7D], [0x10], by decide, rfl, by decide, by decide, by decide⟩
  refine ⟨by decide, hplace, hinto, fun hsame => ?_⟩
  rw [hplace, hinto] at hsame
  exact absurd (Except.ok.inj hsame) (by decide)

end CabinetBus.Frame
