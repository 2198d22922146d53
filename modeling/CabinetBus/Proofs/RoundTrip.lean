-- SUMMARY: Unframing gives back what framing took, in place and into any target with room.
import CabinetBus.Proofs.Unframing

/-!
# Round trip of frames

Framing answers with the wire frame of its content whenever the escaped body fits.
Unframing that wire frame gives the content and its checksum between the markers.
The one exception is a wire frame of five bytes, which unframing refuses as too
short: a content of one byte of which nothing, the checksum included, was escaped.
-/

namespace CabinetBus.Frame

/-! ## What framing answers -/

/-- Framing succeeds exactly when there is room, and then answers with the wire frame of
the content. -/
theorem encode_eq_ok_iff {buffer wire : Bytes} {len : Nat} :
    (encode buffer len).result = .ok wire ↔
      0 < len ∧ len + 2 < buffer.length ∧
        (escapedBody (buffer.slice 1 len)).length ≤ escapeArea ∧
        (escapedBody (buffer.slice 1 len)).length + 2 ≤ buffer.length ∧
        wire = wireFrame (buffer.slice 1 len) := by
  rw [result_encode]
  constructor
  · intro h
    split at h
    · cases h
    · rename_i hpos
      split at h
      · cases h
      · rename_i hroom
        dsimp only at h
        split at h
        · cases h
        · rename_i hfits
          rw [not_or, Nat.not_lt, Nat.not_lt] at hfits
          cases h
          exact ⟨Nat.pos_of_ne_zero hpos, Nat.lt_of_not_le hroom, hfits.1, hfits.2, rfl⟩
  · rintro ⟨hpos, hroom, harea, hfits, rfl⟩
    rw [if_neg (Nat.ne_of_gt hpos), if_neg (Nat.not_le.mpr hroom)]
    exact if_neg (not_or.mpr ⟨Nat.not_lt.mpr harea, Nat.not_lt.mpr hfits⟩)

/-- The buffer keeps its length, whatever the answer. -/
@[simp] theorem length_buffer_encode (buffer : Bytes) (len : Nat) :
    (encode buffer len).buffer.length = buffer.length := by
  unfold encode
  split
  · rfl
  · split
    · rfl
    · rename_i hroom
      have hsummed : (buffer.overwrite len
          (Checksum.bytes (Checksum.of (buffer.slice 1 len)))).length = buffer.length :=
        Bytes.length_overwrite (by rw [Checksum.length_bytes]; omega)
      dsimp only
      split
      · exact hsummed
      · rename_i body _
        split
        · exact hsummed
        · rename_i hfits
          rw [Bytes.length_overwrite, hsummed]
          simp only [List.length_append, List.length_cons, List.length_nil, hsummed]
          omega

/-- The answer is the front of the buffer. -/
theorem take_buffer_encode {buffer wire : Bytes} {len : Nat}
    (h : (encode buffer len).result = .ok wire) :
    (encode buffer len).buffer.take wire.length = wire := by
  revert h
  unfold encode
  split
  · intro h
    cases h
  · split
    · intro h
      cases h
    · dsimp only
      split
      · intro h
        cases h
      · split
        · intro h
          cases h
        · intro h
          cases h
          exact (List.prefix_iff_eq_take.mp (List.take_prefix _ _)).symm

/-! ## Unframing wire frames -/

theorem unescape_escapedBody (content : Bytes) :
    unescape (escapedBody content) = content ++ Checksum.bytes (Checksum.of content) :=
  unescape_escape _

theorem leavesEscape_escapedBody (content : Bytes) :
    leavesEscape false (escapedBody content) = false :=
  leavesEscape_escape _

theorem verdict_unframed (content : Bytes) :
    verdict (unframed content) = .ok (unframed content) := by
  refine (verdict_eq_ok_iff ?_).mpr ⟨rfl, content, rfl⟩
  simp

/-- An unframing of a wire frame that is long enough. -/
theorem result_decode_wireFrame {content : Bytes} (h : 4 ≤ (escapedBody content).length) :
    (decode (wireFrame content)).result = .ok (unframed content) := by
  rw [wireFrame_eq_enclosed, decode_enclosed h, unescape_escapedBody]
  exact verdict_unframed content

theorem result_decodeInto_wireFrame {content : Bytes} (h : 4 ≤ (escapedBody content).length)
    (target : Bytes) :
    (decodeInto (wireFrame content) target).result =
      if content.length + 4 ≤ target.length then .ok (unframed content) else .error .overflow := by
  rw [wireFrame_eq_enclosed, result_decodeInto_enclosed h, unescape_escapedBody,
    leavesEscape_escapedBody, List.length_append, Checksum.length_bytes]
  exact congrArg (fun answer => if content.length + 4 ≤ target.length then answer else _)
    (verdict_unframed content)

/-- Escaping keeps the length only of bytes without delimiters. -/
theorem escape_eq_self_of_length {body : Bytes} (h : (escape body).length ≤ body.length) :
    escape body = body := by
  induction body with
  | nil => rfl
  | cons b rest ih =>
      have hrest := length_le_length_escape rest
      simp only [escape_cons, List.length_append, List.length_cons] at h ⊢
      unfold escapeByte at h ⊢
      split at h
      · simp only [List.length_cons, List.length_nil] at h
        omega
      · rename_i hb
        simp only [List.length_cons, List.length_nil] at h
        rw [if_neg hb, ih (by omega)]
        rfl

/-- Unframing undoes framing, for every content of at least one byte that framing accepts in
any buffer. The wire frame has six bytes at least, and unframing gives back the content and
its checksum, in place and into every target that holds them; or it has five, because one
byte was framed and nothing escaped, and unframing refuses it. -/
theorem unframing_undoes_framing {buffer wire : Bytes} {len : Nat} (hlen : 1 < len)
    (h : (encode buffer len).result = .ok wire) :
    let content := buffer.slice 1 len
    (2 ≤ content.length → 6 ≤ wire.length) ∧
    (6 ≤ wire.length →
      (decode wire).result = .ok (unframed content) ∧
      ∀ target : Bytes, (decodeInto wire target).result =
        if content.length + 4 ≤ target.length then .ok (unframed content)
        else .error .overflow) ∧
    (wire.length < 6 →
      wire.length = 5 ∧ content.length = 1 ∧
      escapedBody content = content ++ Checksum.bytes (Checksum.of content) ∧
      (decode wire).result = .error .invalidBuffer ∧
      ∀ target : Bytes, (decodeInto wire target).result = .error .invalidBuffer) := by
  intro content
  obtain ⟨_, hroom, _, _, hwire⟩ := encode_eq_ok_iff.mp h
  change wire = wireFrame content at hwire
  subst hwire
  have hcontent : content.length = len - 1 := by
    rw [Bytes.length_slice]
    omega
  have hbody := length_escapedBody content
  have hlength : (wireFrame content).length = (escapedBody content).length + 2 := by
    rw [wireFrame_eq_enclosed, length_enclosed]
  refine ⟨fun htwo => by omega, fun hlong => ?_, fun hshort => ?_⟩
  · have hfour : 4 ≤ (escapedBody content).length := by omega
    exact ⟨result_decode_wireFrame hfour, result_decodeInto_wireFrame hfour⟩
  · have hmarkers : checkMarkers (wireFrame content) = .error .invalidBuffer :=
      checkMarkers_short (by omega)
    refine ⟨by omega, by omega, escape_eq_self_of_length ?_, ?_, fun target => ?_⟩
    · rw [List.length_append, Checksum.length_bytes]
      change (escapedBody content).length ≤ _
      omega
    · rw [decode, hmarkers]
    · rw [decodeInto, hmarkers]

/-- A content of markers only, whose checksum needs no escape, and the shortest frame there is. -/
theorem unframing_undoes_framing_of_markers :
    (encode ([0x00, 0x99, 0x02, 0x03, 0x7D] ++ Bytes.zeros 7) 5).result =
      .ok [0x02, 0x99, 0x7D, 0x22, 0x7D, 0x23, 0x7D, 0x5D, 0x25, 0x21, 0x03] ∧
    (decode [0x02, 0x99, 0x7D, 0x22, 0x7D, 0x23, 0x7D, 0x5D, 0x25, 0x21, 0x03]).result =
      .ok [0x02, 0x99, 0x02, 0x03, 0x7D, 0x25, 0x21, 0x03] ∧
    (encode [0x00, 0x10, 0x00, 0x00, 0x00] 2).result = .ok [0x02, 0x10, 0xF3, 0xC1, 0x03] ∧
    (decode [0x02, 0x10, 0xF3, 0xC1, 0x03]).result = .error .invalidBuffer := by
  have hmarkers : (encode ([0x00, 0x99, 0x02, 0x03, 0x7D] ++ Bytes.zeros 7) 5).result =
      .ok [0x02, 0x99, 0x7D, 0x22, 0x7D, 0x23, 0x7D, 0x5D, 0x25, 0x21, 0x03] :=
    encode_eq_ok_iff.mpr (by decide +kernel)
  have hshortest : (encode [0x00, 0x10, 0x00, 0x00, 0x00] 2).result =
      .ok [0x02, 0x10, 0xF3, 0xC1, 0x03] :=
    encode_eq_ok_iff.mpr (by decide +kernel)
  obtain ⟨_, hback, _⟩ := unframing_undoes_framing (by decide) hmarkers
  obtain ⟨_, _, hrefused⟩ := unframing_undoes_framing (by decide) hshortest
  obtain ⟨_, _, _, hrefused, _⟩ := hrefused (by decide)
  have hunframed : unframed (Bytes.slice ([0x00, 0x99, 0x02, 0x03, 0x7D] ++ Bytes.zeros 7) 1 5) =
      [0x02, 0x99, 0x02, 0x03, 0x7D, 0x25, 0x21, 0x03] := by decide +kernel
  exact ⟨hmarkers, hunframed ▸ (hback (by decide)).1, hshortest, hrefused⟩

end CabinetBus.Frame
