-- SUMMARY: Unframing as a function of the bytes received, in place and into a target of any size.
import CabinetBus.Proofs.FrameShape
import CabinetBus.Proofs.InBounds

/-!
# Unframing as a function

Unframing in place computes one function of the bytes that were in the buffer, although it reads
and writes the same buffer. Into a target it computes another, and whether there is room is
decided by the length of what that function gives: it does not matter that room is asked for
before every byte, because no escape marker is the last byte of a wire frame.
-/

namespace CabinetBus.Frame

/-! ## Verdicts -/

/-- The answer for unescaped bytes that end in a checksum of a content. -/
theorem verdict_eq (first last high low : UInt8) (content : Bytes) :
    verdict (first :: (content ++ [high, low]) ++ [last]) =
      if Checksum.of content = Checksum.ofBytes high low then
        .ok (first :: (content ++ [high, low]) ++ [last])
      else .error (.checksum (Checksum.of content) (Checksum.ofBytes high low)) := by
  rw [verdict, checkChecksum_eq]
  by_cases h : Checksum.of content = Checksum.ofBytes high low
  · simp only [if_pos h]
  · simp only [if_neg h]

/-! ## In place -/

/-- What unframing in place is to answer, and to leave in the buffer. -/
def unframing (buffer : Bytes) : OnBuffer :=
  if buffer.length ≤ 5 then ⟨.error .invalidBuffer, buffer⟩
  else if buffer.head? ≠ some startMarker then ⟨.error .invalidStart, buffer⟩
  else if buffer.getLast? ≠ some endMarker then ⟨.error .invalidEnd, buffer⟩
  else
    let body := unescape (buffer.slice 1 (buffer.length - 1))
    let decoded := startMarker :: body ++ [endMarker]
    let expected := Checksum.of (body.take (body.length - 2))
    let actual := Checksum.ofBytes (body.getD (body.length - 2) 0) (body.getD (body.length - 1) 0)
    ⟨if expected = actual then .ok decoded else .error (.checksum expected actual),
      decoded ++ buffer.drop decoded.length⟩

theorem unframing_of_checkMarkers_error {buffer : Bytes} {e : FrameError}
    (h : checkMarkers buffer = .error e) : unframing buffer = ⟨.error e, buffer⟩ := by
  unfold checkMarkers at h
  unfold unframing
  rw [overhead] at h
  split at h
  · rename_i hlen
    cases h
    exact if_pos hlen
  · rename_i hlen
    rw [if_neg hlen]
    split at h
    · rename_i hstart
      cases h
      exact if_pos hstart
    · rename_i hstart
      rw [if_neg hstart]
      split at h
      · rename_i hend
        cases h
        exact if_pos hend
      · cases h

theorem slice_enclosed (body : Bytes) :
    (enclosed body).slice 1 ((enclosed body).length - 1) = body := by
  rw [length_enclosed]
  simp [enclosed, Bytes.slice]

theorem unframing_enclosed {body : Bytes} (h : 4 ≤ body.length) :
    unframing (enclosed body) = ⟨verdict (enclosed (unescape body)),
      enclosed (unescape body) ++ (enclosed body).drop ((unescape body).length + 2)⟩ := by
  obtain ⟨content, high, low, hbody⟩ := exists_eq_append_pair (two_le_length_unescape h)
  have hlen : ¬ (enclosed body).length ≤ 5 := by
    rw [length_enclosed]
    omega
  have hend : (enclosed body).getLast? = some endMarker := List.getLast?_concat ..
  have hverdict := verdict_eq startMarker endMarker high low content
  rw [← enclosed] at hverdict
  rw [unframing, if_neg hlen, if_neg (by simp [enclosed]), if_neg (by simp [hend]), slice_enclosed,
    hbody, hverdict]
  simp [enclosed]

theorem decode_eq_unframing (buffer : Bytes) : decode buffer = unframing buffer := by
  cases hmarkers : checkMarkers buffer with
  | error e => rw [decode, hmarkers, unframing_of_checkMarkers_error hmarkers]
  | ok =>
      obtain ⟨body, hbody, rfl⟩ := (checkMarkers_eq_ok_iff buffer).mp hmarkers
      rw [decode_enclosed hbody, unframing_enclosed hbody]

/-- Only what is too short as it comes is refused as too short. -/
theorem decode_eq_invalidBuffer_iff (buffer : Bytes) :
    (decode buffer).result = .error .invalidBuffer ↔ buffer.length ≤ 5 := by
  rw [decode_eq_unframing]
  constructor
  · intro h
    unfold unframing at h
    split at h
    · assumption
    · split at h
      · cases h
      · split at h
        · cases h
        · dsimp only at h
          split at h <;> cases h
  · intro h
    rw [unframing, if_pos h]

/-- Unframing in place, on all bytes: no access is out of bounds, and the answer and the bytes left
are a function of the bytes that were there. Bytes with their markers in place unescape to two
bytes at least, so there always is a checksum to compare. -/
theorem decode_computes_unframing (buffer : Bytes) :
    decode? buffer = some (decode buffer) ∧ decode buffer = unframing buffer ∧
    ((decode buffer).result = .error .invalidBuffer ↔ buffer.length ≤ 5) ∧
    (checkMarkers buffer = .ok () →
      2 ≤ (unescape (buffer.slice 1 (buffer.length - 1))).length) := by
  refine ⟨decode?_eq buffer, decode_eq_unframing buffer, decode_eq_invalidBuffer_iff buffer,
    fun hmarkers => ?_⟩
  obtain ⟨body, hbody, rfl⟩ := (checkMarkers_eq_ok_iff buffer).mp hmarkers
  rw [slice_enclosed]
  exact two_le_length_unescape hbody

/-! ## Into a target -/

/-- Unframing into a target, on any frame that has its markers, by its length once unescaped. -/
theorem decodeInto_enclosed {body : Bytes} (h : 4 ≤ body.length) (target : Bytes) :
    decodeInto (enclosed body) target =
      if (unescape (enclosed body)).length ≤ target.length then
        ⟨verdict (unescape (enclosed body)), target.overwrite 0 (unescape (enclosed body))⟩
      else ⟨.error .overflow,
        target.overwrite 0 ((unescape (enclosed body)).take target.length)⟩ := by
  have hpass := unescapeWithin_eq target.length (leavesEscape_enclosed body)
  rw [unescapeFrom_false] at hpass
  simp only [decodeInto, checkMarkers_enclosed h, hpass, verdict]
  by_cases hroom : (unescape (enclosed body)).length ≤ target.length
  · simp only [if_pos hroom]
    cases checkChecksum (unescape (enclosed body)) <;> rfl
  · simp only [if_neg hroom]

/-- Unframing into a target runs out of room exactly if the target is shorter than the unescaped
frame, whatever its checksum says. With room enough, neither the answer nor the bytes written
depend on the target. -/
theorem decodeInto_overflows_iff {source : Bytes} (h : checkMarkers source = .ok ()) :
    let decoded := unescape source
    4 ≤ decoded.length ∧
    (∀ target : Bytes,
      (decodeInto source target).result = .error .overflow ↔ target.length < decoded.length) ∧
    ∃ first content high low last,
      decoded = first :: (content ++ [high, low]) ++ [last] ∧
      ∀ target : Bytes, decoded.length ≤ target.length →
        decodeInto source target =
          ⟨if Checksum.of content = Checksum.ofBytes high low then .ok decoded
            else .error (.checksum (Checksum.of content) (Checksum.ofBytes high low)),
          decoded ++ target.drop decoded.length⟩ := by
  obtain ⟨body, hbody, rfl⟩ := (checkMarkers_eq_ok_iff source).mp h
  obtain ⟨content, high, low, hcontent⟩ := exists_eq_append_pair (two_le_length_unescape hbody)
  intro decoded
  have hdecoded : decoded =
      startMarker :: (content ++ [high, low]) ++ [closing (leavesEscape false body)] := by
    rw [← hcontent, ← unescapeFrom_enclosed, unescapeFrom_false]
  have hverdict := verdict_eq startMarker (closing (leavesEscape false body)) high low content
  rw [← hdecoded] at hverdict
  have hlength : 4 ≤ decoded.length := by
    rw [hdecoded]
    simp
  refine ⟨hlength, fun target => ?_, _, content, high, low, _, hdecoded, fun target hfits => ?_⟩
  · by_cases hfits : decoded.length ≤ target.length
    · have hverdict : verdict decoded ≠ .error .overflow := by
        rw [hverdict]
        split <;> exact nofun
      rw [decodeInto_enclosed hbody, if_pos hfits]
      exact ⟨fun h => absurd h hverdict, fun hshort => absurd hfits (by omega)⟩
    · rw [decodeInto_enclosed hbody, if_neg hfits]
      exact ⟨fun _ => by omega, fun _ => rfl⟩
  · rw [decodeInto_enclosed hbody, if_pos hfits, hverdict]
    simp [Bytes.overwrite, decoded]

/-- A frame with a wrong checksum and an escape marker before its end: one byte too little room is
what is told of a small target, the checksum of a large one. -/
theorem decodeInto_overflows_iff_wrong_checksum :
    let wire : Bytes := [0x02, 0x10, 0xF3, 0xC0, 0x7D, 0x03]
    (decodeInto wire [0xAA, 0xAA, 0xAA, 0xAA]).result = .error .overflow ∧
    decodeInto wire [0xAA, 0xAA, 0xAA, 0xAA, 0xAA, 0xBB] =
      ⟨.error (.checksum 0xF3C1 0xF3C0), [0x02, 0x10, 0xF3, 0xC0, 0x23, 0xBB]⟩ := by
  intro wire
  obtain ⟨_, hoverflow, first, content, high, low, last, hdecoded, hroom⟩ :=
    @decodeInto_overflows_iff wire rfl
  obtain ⟨hfront, hlast⟩ := List.append_inj'
    (show [0x02, 0x10, 0xF3, 0xC0] ++ [0x23] = (first :: (content ++ [high, low])) ++ [last] from
      hdecoded) rfl
  obtain ⟨hcontent, hsum⟩ := List.append_inj'
    (show [0x10] ++ [0xF3, 0xC0] = content ++ [high, low] from (List.cons_eq_cons.mp hfront).2) rfl
  obtain ⟨rfl, rfl⟩ : 0xF3 = high ∧ 0xC0 = low := by simpa using hsum
  subst hcontent
  refine ⟨(hoverflow _).mpr (by decide), (hroom _ (by decide)).trans ?_⟩
  rw [if_neg (by decide)]
  rfl

end CabinetBus.Frame
