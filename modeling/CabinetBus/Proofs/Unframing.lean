-- SUMMARY: What unframing answers, by the bytes between the markers, and which frames it accepts.
import CabinetBus.Message.ReportReader
import CabinetBus.Proofs.Unescaping

/-!
# Answers of unframing

Past the markers, the answer of both forms of unframing is decided by the
unescaped body alone: its last two bytes are compared with the checksum of what
is before them. Unframing accepts a frame exactly when they are that checksum.
-/

namespace CabinetBus.Frame

/-! ## Enclosed bodies -/

/-- A body between the two markers. -/
def enclosed (body : Bytes) : Bytes := startMarker :: body ++ [endMarker]

/-- The unframed frame of a content. -/
def unframed (content : Bytes) : Bytes :=
  enclosed (content ++ Checksum.bytes (Checksum.of content))

@[simp] theorem length_enclosed (body : Bytes) : (enclosed body).length = body.length + 2 := by
  simp [enclosed]

theorem length_unframed (content : Bytes) : (unframed content).length = content.length + 4 := by
  simp [unframed]

theorem wireFrame_eq_enclosed (content : Bytes) :
    wireFrame content = enclosed (escapedBody content) := rfl

/-- The markers are in place around any body of at least four bytes, and only there. -/
theorem checkMarkers_eq_ok_iff (wire : Bytes) :
    checkMarkers wire = .ok () ↔ ∃ body : Bytes, 4 ≤ body.length ∧ wire = enclosed body := by
  constructor
  · intro h
    unfold checkMarkers at h
    split at h
    · cases h
    · rename_i hlen
      split at h
      · cases h
      · rename_i hstart
        split at h
        · cases h
        · rename_i hend
          rw [Decidable.not_not] at hstart hend
          obtain ⟨rest, rfl⟩ := List.head?_eq_some_iff.mp hstart
          have hrest : rest ≠ [] := by
            rintro rfl
            exact hlen (by simp [overhead])
          rw [List.getLast?_cons_of_ne_nil hrest] at hend
          obtain ⟨body, rfl⟩ := List.getLast?_eq_some_iff.mp hend
          refine ⟨body, ?_, rfl⟩
          simp only [overhead, List.length_cons, List.length_append, List.length_nil] at hlen
          omega
  · rintro ⟨body, hbody, rfl⟩
    have hlen : ¬ (enclosed body).length ≤ overhead := by
      rw [length_enclosed, overhead]
      omega
    have hend : (enclosed body).getLast? = some endMarker := List.getLast?_concat ..
    rw [checkMarkers, if_neg hlen, if_neg (by simp [enclosed]), if_neg (by simp [hend])]

theorem checkMarkers_enclosed {body : Bytes} (h : 4 ≤ body.length) :
    checkMarkers (enclosed body) = .ok () :=
  (checkMarkers_eq_ok_iff _).mpr ⟨body, h, rfl⟩

/-- Frames of five bytes are too short for unframing, whatever they hold. -/
theorem checkMarkers_short {wire : Bytes} (h : wire.length ≤ 5) :
    checkMarkers wire = .error .invalidBuffer := by
  rw [checkMarkers, if_pos (show wire.length ≤ overhead from h)]

/-! ## Checksums of unescaped frames -/

theorem ofBytes_eq_iff (high low : UInt8) (register : BitVec 16) :
    register = Checksum.ofBytes high low ↔ [high, low] = Checksum.bytes register := by
  constructor
  · rintro rfl
    simp only [Checksum.bytes, Checksum.ofBytes]
    rw [BitVec.extractLsb'_append_eq_left, BitVec.extractLsb'_append_eq_right]
  · intro h
    obtain ⟨rfl, rfl⟩ : high = _ ∧ low = _ := by simpa [Checksum.bytes] using h
    exact (@BitVec.extractLsb'_append_extractLsb' 8 8 register).symm

/-- The last three bytes are the carried checksum and the end; the first is the start. -/
theorem checkChecksum_eq (first last high low : UInt8) (content : Bytes) :
    checkChecksum (first :: (content ++ [high, low]) ++ [last]) =
      if Checksum.of content = Checksum.ofBytes high low then .ok ()
      else .error (.checksum (Checksum.of content) (Checksum.ofBytes high low)) := by
  have hlen : (first :: (content ++ [high, low]) ++ [last]).length = content.length + 4 := by simp
  have hcomputed : computedChecksum? (first :: (content ++ [high, low]) ++ [last]) =
      some (Checksum.of content) := by
    rw [computedChecksum?, if_neg (by omega), hlen]
    simp [Bytes.slice]
  have hcarried : carriedChecksum? (first :: (content ++ [high, low]) ++ [last]) =
      some (Checksum.ofBytes high low) := by
    rw [carriedChecksum?, hlen]
    simp
  rw [checkChecksum, hcomputed, hcarried]

/-- What unframing answers on unescaped bytes. -/
def verdict (decoded : Bytes) : Except FrameError Bytes :=
  match checkChecksum decoded with
  | .ok () => .ok decoded
  | .error e => .error e

theorem exists_eq_append_pair {body : Bytes} (h : 2 ≤ body.length) :
    ∃ content high low, body = content ++ [high, low] := by
  rcases List.eq_nil_or_concat body with rfl | ⟨front, low, rfl⟩
  · cases h
  · rcases List.eq_nil_or_concat front with rfl | ⟨content, high, rfl⟩
    · exact absurd h (Nat.not_succ_le_self 1)
    · exact ⟨content, high, low, by simp⟩

/-- The verdict is good exactly on a content followed by its checksum. -/
theorem verdict_eq_ok_iff {first last : UInt8} {body decoded : Bytes} (h : 2 ≤ body.length) :
    verdict (first :: body ++ [last]) = .ok decoded ↔
      decoded = first :: body ++ [last] ∧
        ∃ content, body = content ++ Checksum.bytes (Checksum.of content) := by
  obtain ⟨content, high, low, rfl⟩ := exists_eq_append_pair h
  have hsplit : (∃ other, content ++ [high, low] = other ++ Checksum.bytes (Checksum.of other)) ↔
      Checksum.of content = Checksum.ofBytes high low := by
    rw [ofBytes_eq_iff]
    constructor
    · rintro ⟨other, heq⟩
      obtain ⟨rfl, hbytes⟩ := List.append_inj' heq rfl
      exact hbytes
    · intro hbytes
      exact ⟨content, by rw [hbytes]⟩
  rw [hsplit, verdict, checkChecksum_eq]
  by_cases hsum : Checksum.of content = Checksum.ofBytes high low
  · simp [hsum, eq_comm]
  · simp [hsum]

/-! ## Unframing in place -/

/-- Before the end marker is set, the front of the buffer is the start marker and the
unescaped body. -/
theorem InPlace.ofFrame_enclosed (body : Bytes) :
    InPlace.ofFrame (enclosed body) =
      midway (startMarker :: unescape body) (body.drop (unescape body).length) [] [endMarker]
        (leavesEscape false body) := by
  have hpass := foldl_step [startMarker] [] body [endMarker] false
  rw [unescapeFrom_false] at hpass
  simpa [InPlace.ofFrame, enclosed, midway] using hpass

/-- Setting the end marker closes the unescaped frame; what lies behind it is as it was. -/
theorem InPlace.put_ofFrame_enclosed (body : Bytes) :
    ((InPlace.ofFrame (enclosed body)).put endMarker).buffer.toList =
      enclosed (unescape body) ++ (enclosed body).drop ((unescape body).length + 2) := by
  have hmoved : InPlace.ofFrame (enclosed body) =
      midway (startMarker :: unescape body) (body.drop (unescape body).length) [endMarker] []
        (leavesEscape false body) := by
    rw [ofFrame_enclosed]
    simp [midway]
  have hle := length_unescapeFrom_le false body
  rw [unescapeFrom_false] at hle
  have hrest : (enclosed body).drop ((unescape body).length + 2) =
      (body.drop (unescape body).length ++ [endMarker]).tail := by
    rw [← List.drop_one, ← List.drop_append_of_le_length hle, List.drop_drop, enclosed,
      List.cons_append, List.drop_succ_cons]
  rw [hmoved, put_midway, hrest]
  simp [midway, enclosed]

/-- Unframing in place, on any frame that has its markers: the front of the buffer becomes
the unescaped frame. -/
theorem decode_enclosed {body : Bytes} (h : 4 ≤ body.length) :
    decode (enclosed body) =
      ⟨verdict (enclosed (unescape body)),
        enclosed (unescape body) ++ (enclosed body).drop ((unescape body).length + 2)⟩ := by
  have htarget : (InPlace.ofFrame (enclosed body)).target + 1 =
      (enclosed (unescape body)).length := by
    rw [InPlace.ofFrame_enclosed]
    simp [InPlace.midway, enclosed]
  simp only [decode, checkMarkers_enclosed h, InPlace.put_ofFrame_enclosed, htarget,
    List.take_left', verdict]
  cases checkChecksum (enclosed (unescape body)) <;> rfl

/-! ## Unframing into another buffer -/

/-- What becomes of the end marker when it passes through unescaping. -/
def closing (escaped : Bool) : UInt8 := if escaped then endMarker ^^^ escapeMask else endMarker

/-- The markers pass through unescaping as the ends of the body. -/
theorem unescapeFrom_enclosed (body : Bytes) :
    unescapeFrom false (enclosed body) =
      startMarker :: unescape body ++ [closing (leavesEscape false body)] := by
  have hstart : startMarker ≠ escapeMarker := by decide
  rw [enclosed, List.cons_append, unescapeFrom_plain hstart, unescapeFrom_append,
    unescapeFrom_false]
  cases leavesEscape false body <;> rfl

/-- The end marker is no escape marker, so none waits behind it. -/
theorem leavesEscape_enclosed (body : Bytes) : leavesEscape false (enclosed body) = false := by
  have hstart : startMarker ≠ escapeMarker := by decide
  rw [enclosed, List.cons_append, leavesEscape_plain hstart, leavesEscape_append]
  cases leavesEscape false body <;> rfl

/-- Unframing into a target, on any frame that has its markers. -/
theorem result_decodeInto_enclosed {body : Bytes} (h : 4 ≤ body.length) (target : Bytes) :
    (decodeInto (enclosed body) target).result =
      if (unescape body).length + 2 ≤ target.length then
        verdict (startMarker :: unescape body ++ [closing (leavesEscape false body)])
      else .error .overflow := by
  have hpass := unescapeWithin_eq target.length (leavesEscape_enclosed body)
  rw [unescapeFrom_enclosed] at hpass
  have hlen : (startMarker :: unescape body ++ [closing (leavesEscape false body)]).length =
      (unescape body).length + 2 := by simp
  simp only [decodeInto, checkMarkers_enclosed h, hpass, hlen, verdict]
  by_cases hroom : (unescape body).length + 2 ≤ target.length
  · simp only [if_pos hroom]
    generalize checkChecksum _ = checked
    cases checked <;> rfl
  · simp only [if_neg hroom]

/-- The target keeps its length, whatever the answer. -/
@[simp] theorem length_buffer_decodeInto (source target : Bytes) :
    (decodeInto source target).buffer.length = target.length := by
  have hfits := length_unescapeWithin target.length false source
  unfold decodeInto
  split
  · rfl
  · split
    · rename_i written hpass
      rw [hpass] at hfits
      exact Bytes.length_overwrite (by simpa using hfits)
    · rename_i decoded hpass
      rw [hpass] at hfits
      split <;> exact Bytes.length_overwrite (by simpa using hfits)

/-- The answer is the front of the target. -/
theorem take_buffer_decodeInto {source target decoded : Bytes}
    (h : (decodeInto source target).result = .ok decoded) :
    (decodeInto source target).buffer.take decoded.length = decoded := by
  unfold decodeInto at h ⊢
  split at h
  · cases h
  · split at h
    · cases h
    · split at h
      · cases h
      · cases h
        exact Bytes.take_overwrite_zero ..

/-! ## Accepted frames -/

/-- A body long enough for the markers to be accepted holds a checksum once unescaped. -/
theorem two_le_length_unescape {body : Bytes} (h : 4 ≤ body.length) :
    2 ≤ (unescape body).length := by
  have hhalf := length_le_unescapeFrom false body
  rw [unescapeFrom_false, Bool.toNat_false] at hhalf
  omega

/-- Only a frame with its markers in place can be accepted. -/
theorem enclosed_of_decode {wire decoded : Bytes} (h : (decode wire).result = .ok decoded) :
    ∃ body : Bytes, 4 ≤ body.length ∧ wire = enclosed body := by
  apply (checkMarkers_eq_ok_iff wire).mp
  cases hmarkers : checkMarkers wire with
  | ok => rfl
  | error e =>
      rw [decode, hmarkers] at h
      cases h

theorem enclosed_of_decodeInto {wire target decoded : Bytes}
    (h : (decodeInto wire target).result = .ok decoded) :
    ∃ body : Bytes, 4 ≤ body.length ∧ wire = enclosed body := by
  apply (checkMarkers_eq_ok_iff wire).mp
  cases hmarkers : checkMarkers wire with
  | ok => rfl
  | error e =>
      rw [decodeInto, hmarkers] at h
      cases h

/-- The wire frames that unframing in place accepts, and what it makes of them. -/
theorem decode_eq_ok_iff {wire decoded : Bytes} :
    (decode wire).result = .ok decoded ↔
      ∃ body content : Bytes, 4 ≤ body.length ∧ wire = enclosed body ∧
        unescape body = content ++ Checksum.bytes (Checksum.of content) ∧
        decoded = unframed content := by
  constructor
  · intro h
    obtain ⟨body, hbody, rfl⟩ := enclosed_of_decode h
    rw [decode_enclosed hbody] at h
    obtain ⟨hdecoded, content, hcontent⟩ :=
      (verdict_eq_ok_iff (two_le_length_unescape hbody)).mp h
    exact ⟨body, content, hbody, rfl, hcontent, by rw [hdecoded, hcontent]; rfl⟩
  · rintro ⟨body, content, hbody, rfl, hcontent, rfl⟩
    rw [decode_enclosed hbody]
    exact (verdict_eq_ok_iff (two_le_length_unescape hbody)).mpr
      ⟨by rw [hcontent]; rfl, content, hcontent⟩

/-- The wire frames that unframing into a target accepts, and what it makes of them. -/
theorem decodeInto_eq_ok_iff {wire target decoded : Bytes} :
    (decodeInto wire target).result = .ok decoded ↔
      ∃ body content : Bytes, 4 ≤ body.length ∧ wire = enclosed body ∧
        unescape body = content ++ Checksum.bytes (Checksum.of content) ∧
        content.length + 4 ≤ target.length ∧
        decoded = startMarker :: (content ++ Checksum.bytes (Checksum.of content)) ++
          [closing (leavesEscape false body)] := by
  constructor
  · intro h
    obtain ⟨body, hbody, rfl⟩ := enclosed_of_decodeInto h
    rw [result_decodeInto_enclosed hbody] at h
    split at h
    · rename_i hroom
      obtain ⟨hdecoded, content, hcontent⟩ :=
        (verdict_eq_ok_iff (two_le_length_unescape hbody)).mp h
      rw [hcontent, List.length_append, Checksum.length_bytes] at hroom
      exact ⟨body, content, hbody, rfl, hcontent, hroom, by rw [hdecoded, hcontent]⟩
    · cases h
  · rintro ⟨body, content, hbody, rfl, hcontent, hroom, rfl⟩
    have hlen : (unescape body).length = content.length + 2 := by
      rw [hcontent, List.length_append, Checksum.length_bytes]
    rw [result_decodeInto_enclosed hbody, if_pos (by omega)]
    exact (verdict_eq_ok_iff (two_le_length_unescape hbody)).mpr
      ⟨by rw [hcontent], content, hcontent⟩

end CabinetBus.Frame

/-! ## Loading -/

namespace CabinetBus.ReportReader

@[simp] theorem length_buffer_load (r : ReportReader) (wire : Bytes) :
    (r.load wire).2.buffer.length = r.buffer.length := by
  simp only [load]
  split <;> exact Frame.length_buffer_decodeInto ..

/-- A load succeeds with unframing into the buffer, and the loaded frame is its answer. -/
theorem load_of_decodeInto {r : ReportReader} {wire decoded : Bytes}
    (h : (Frame.decodeInto wire r.buffer).result = .ok decoded) :
    (r.load wire).1 = .ok () ∧ (r.load wire).2.frame = decoded := by
  simp only [load, h, true_and]
  exact Frame.take_buffer_decodeInto h

theorem load_eq_ok_iff {r : ReportReader} {wire : Bytes} :
    (r.load wire).1 = .ok () ↔
      ∃ decoded, (Frame.decodeInto wire r.buffer).result = .ok decoded := by
  constructor
  · intro h
    simp only [load] at h
    split at h
    · rename_i decoded hdecoded
      exact ⟨decoded, hdecoded⟩
    · cases h
  · rintro ⟨decoded, hdecoded⟩
    exact (load_of_decodeInto hdecoded).1

end CabinetBus.ReportReader
