-- SUMMARY: Framing anew what was unframed in the same buffer, and what comes back as it was.
import CabinetBus.Proofs.Framed
import CabinetBus.Proofs.Unframed

/-!
# Framing anew

Unframing takes many spellings of one content: escaped bytes that need no escape, markers that
stand for themselves, an escape marker that waits before the end. Framing the content anew, in the
buffer that still holds what the longer spelling left behind, writes one of them whatever it came
from. The spellings that come back as they were are the canonical ones, and for these there is
always room.
-/

namespace CabinetBus.Frame

/-! ## Canonical bodies -/

theorem IsCanonical.of_append (front : Bytes) {rest : Bytes} (h : IsCanonical (front ++ rest)) :
    IsCanonical rest := by
  refine ⟨fun hmem => h.no_start (List.mem_append_right front hmem),
    fun hmem => h.no_end (List.mem_append_right front hmem), fun i hi => ?_⟩
  have hshift (k : Nat) : (front ++ rest)[front.length + k]? = rest[k]? := by
    rw [List.getElem?_append_right (Nat.le_add_right _ _), Nat.add_sub_cancel_left]
  obtain ⟨b, hb, hnext⟩ := h.paired (front.length + i) (by rw [hshift, hi])
  exact ⟨b, hb, by rw [← hshift, ← Nat.add_assoc, hnext]⟩

/-- A first byte other than an escape marker is no delimiter. -/
theorem IsCanonical.escapeByte_head {b : UInt8} {rest : Bytes} (h : IsCanonical (b :: rest))
    (hb : b ≠ escapeMarker) : escapeByte b = [b] := by
  have hstart : b ≠ startMarker := fun heq => h.no_start (by simp [heq])
  have hend : b ≠ endMarker := fun heq => h.no_end (by simp [heq])
  exact if_neg (by simp [isDelimiter, hstart, hend, hb])

/-- The byte behind a first escape marker is a delimiter with its bit flipped. -/
theorem IsCanonical.escapeByte_partner {b : UInt8} {rest : Bytes}
    (h : IsCanonical (escapeMarker :: b :: rest)) :
    escapeByte (b ^^^ escapeMask) = [escapeMarker, b] := by
  obtain ⟨partner, hmem, hnext⟩ := h.paired 0 rfl
  obtain rfl : b = partner := Option.some.inj hnext
  obtain rfl | rfl | rfl : b = 0x22 ∨ b = 0x23 ∨ b = 0x5D := by simpa using hmem
  · rfl
  · rfl
  · rfl

theorem IsCanonical.escape_unescape {body : Bytes} (h : IsCanonical body) :
    escape (unescape body) = body := by
  fun_induction unescape body with
  | case1 => rfl
  | case2 =>
      obtain ⟨b, _, hnext⟩ := h.paired 0 rfl
      cases hnext
  | case3 b hb =>
      rw [escape_cons, h.escapeByte_head hb]
      rfl
  | case4 b rest ih =>
      have hrest : IsCanonical rest := h.of_append [escapeMarker, b]
      rw [escape_cons, h.escapeByte_partner, ih hrest]
      rfl
  | case5 b c rest hb ih =>
      have hrest : IsCanonical (c :: rest) := h.of_append [b]
      rw [escape_cons, h.escapeByte_head hb, ih hrest]
      rfl

/-- The bodies that are escaped again as they were are the canonical ones. -/
theorem escape_unescape_eq_iff {body : Bytes} :
    escape (unescape body) = body ↔ IsCanonical body := by
  constructor
  · intro h
    rw [← h]
    exact isCanonical_escape _
  · exact IsCanonical.escape_unescape

/-! ## The same buffer -/

/-- The content of an unframed frame, without its checksum. -/
def contentOf (decoded : Bytes) : Bytes := decoded.slice 1 (decoded.length - 3)

/-- The bytes between the markers of a wire frame. -/
def bodyOf (wire : Bytes) : Bytes := wire.slice 1 (wire.length - 1)

/-- Unframes the wire frame at the front of a buffer in place, and frames anew what came of it. -/
def reframe (wire behind : Bytes) : OnBuffer :=
  match decode wire with
  | ⟨.error e, buffer⟩ => ⟨.error e, buffer ++ behind⟩
  | ⟨.ok decoded, buffer⟩ => encode (buffer ++ behind) (decoded.length - 3)

theorem bodyOf_enclosed (body : Bytes) : bodyOf (enclosed body) = body := slice_enclosed body

/-- A content stays where unframing left it, whatever lies behind the frame. -/
theorem slice_unframed_append (content rest : Bytes) :
    (unframed content ++ rest).slice 1 ((unframed content).length - 3) = content := by
  have hstop : (unframed content).length - 3 = content.length + 1 := by
    rw [length_unframed]
    omega
  rw [hstop]
  simp [Bytes.slice, unframed, enclosed]

theorem contentOf_unframed (content : Bytes) : contentOf (unframed content) = content := by
  have hslice := slice_unframed_append content []
  rwa [List.append_nil] at hslice

/-- An unframed frame lies at the front of what its wire frame took of the buffer. -/
theorem decode_eq_of_ok {wire decoded : Bytes} (h : (decode wire).result = .ok decoded) :
    ∃ left : Bytes, decode wire = ⟨.ok decoded, decoded ++ left⟩ ∧
      decoded.length + left.length = wire.length := by
  obtain ⟨body, hbody, rfl⟩ := enclosed_of_decode h
  have hle := length_unescapeFrom_le false body
  rw [unescapeFrom_false] at hle
  rw [decode_enclosed hbody] at h ⊢
  obtain ⟨rfl, _⟩ := (verdict_eq_ok_iff (two_le_length_unescape hbody)).mp h
  refine ⟨_, congrArg (OnBuffer.mk · _) h, ?_⟩
  change (enclosed (unescape body)).length + _ = _
  rw [List.length_drop, length_enclosed, length_enclosed]
  omega

/-- Framing anew is decided by the length of the canonical frame: for the checksum there always is
room, since it goes where the unframed frame had its own. -/
theorem result_reframe {wire decoded : Bytes} (h : (decode wire).result = .ok decoded)
    (behind : Bytes) :
    (reframe wire behind).result =
      if (escapedBody (contentOf decoded)).length ≤ escapeArea ∧
          (escapedBody (contentOf decoded)).length + 2 ≤ wire.length + behind.length then
        .ok (wireFrame (contentOf decoded))
      else .error .overflow := by
  obtain ⟨_, content, _, _, _, rfl⟩ := decode_eq_ok_iff.mp h
  obtain ⟨left, hdecode, hlength⟩ := decode_eq_of_ok h
  have hbuffer : (unframed content ++ left ++ behind).length = wire.length + behind.length := by
    rw [List.length_append, List.length_append, hlength]
  have hcontent : (unframed content ++ left ++ behind).slice 1 ((unframed content).length - 3) =
      content := by
    rw [List.append_assoc, slice_unframed_append]
  have hunframed := length_unframed content
  rw [reframe, hdecode, contentOf_unframed]
  dsimp only
  rw [encode_of_room (by omega) (by omega), hcontent, hbuffer]
  split <;> rfl

/-- The canonical frame of an accepted wire frame is that frame if its body is canonical. -/
theorem wireFrame_contentOf_eq_iff {wire decoded : Bytes} (h : (decode wire).result = .ok decoded) :
    wireFrame (contentOf decoded) = wire ↔ IsCanonical (bodyOf wire) := by
  obtain ⟨body, content, _, rfl, hcontent, rfl⟩ := decode_eq_ok_iff.mp h
  rw [contentOf_unframed, bodyOf_enclosed, wireFrame_eq_enclosed, enclosed_inj, escapedBody,
    ← hcontent, escape_unescape_eq_iff]

/-- Framing anew what was unframed in the same buffer, whatever lies behind the frame. The answer,
if there is one, is a function of the unframed frame; unframed in its turn it gives that frame
again, unless it is too short to be accepted, and it is the frame that was there at first exactly
if that one was canonical. A canonical frame whose body fits the working area always comes back,
also in a buffer that ends where the frame does. -/
theorem reframing_gives_canonical_frame {wire decoded : Bytes}
    (h : (decode wire).result = .ok decoded) (behind : Bytes) :
    (∀ again, (reframe wire behind).result = .ok again →
      again = wireFrame (contentOf decoded) ∧
      (5 < again.length → (decode again).result = .ok decoded) ∧
      (again = wire ↔ IsCanonical (bodyOf wire))) ∧
    (IsCanonical (bodyOf wire) → (bodyOf wire).length ≤ 256 →
      (reframe wire behind).result = .ok wire) := by
  have hcanonical := wireFrame_contentOf_eq_iff h
  rw [result_reframe h]
  refine ⟨fun again hagain => ?_, fun hbody harea => ?_⟩
  · split at hagain
    · cases hagain
      refine ⟨rfl, fun hlong => ?_, hcanonical⟩
      obtain ⟨_, content, _, _, _, rfl⟩ := decode_eq_ok_iff.mp h
      rw [contentOf_unframed] at hlong ⊢
      rw [wireFrame_eq_enclosed, length_enclosed] at hlong
      exact result_decode_wireFrame (by omega)
    · cases hagain
  · have hwire := hcanonical.mpr hbody
    have hescaped : escapedBody (contentOf decoded) = bodyOf wire := by
      rw [← hwire, wireFrame_eq_enclosed, bodyOf_enclosed]
    have hlength : wire.length = (bodyOf wire).length + 2 := by
      rw [← hescaped, ← length_enclosed, ← wireFrame_eq_enclosed, hwire]
    rw [hescaped, if_pos ⟨harea, by omega⟩, hwire]

/-- A frame with a needless escape and raw markers comes back in its canonical spelling, which is
longer and takes a byte from behind it. That spelling comes back as it was. -/
theorem reframing_gives_canonical_frame_raw_markers :
    let wire : Bytes := [0x02, 0x7D, 0xB9, 0x02, 0x03, 0x7D, 0x5D, 0x25, 0x21, 0x03]
    let canonical : Bytes :=
      [0x02, 0x99, 0x7D, 0x22, 0x7D, 0x23, 0x7D, 0x5D, 0x25, 0x21, 0x03]
    let decoded : Bytes := [0x02, 0x99, 0x02, 0x03, 0x7D, 0x25, 0x21, 0x03]
    (decode wire).result = .ok decoded ∧
    (reframe wire [0xAA, 0xBB]).result = .ok canonical ∧
    ¬ IsCanonical (bodyOf wire) ∧
    (decode canonical).result = .ok decoded ∧
    (reframe canonical []).result = .ok canonical := by
  intro wire canonical decoded
  have hwire : (decode wire).result = .ok decoded :=
    decode_eq_ok_iff.mpr ⟨bodyOf wire, [0x99, 0x02, 0x03, 0x7D], by decide, rfl,
      by decide +kernel, by decide +kernel⟩
  have hagain : (reframe wire [0xAA, 0xBB]).result = .ok canonical := by
    rw [result_reframe hwire]
    decide +kernel
  obtain ⟨_, hback, hiff⟩ := (reframing_gives_canonical_frame hwire [0xAA, 0xBB]).1 _ hagain
  have hcanonical := hback (by decide)
  have hdiffers : ¬ IsCanonical (bodyOf wire) := fun h => absurd (hiff.mpr h) (by decide)
  have hbody : IsCanonical (bodyOf canonical) := escape_unescape_eq_iff.mp (by decide)
  exact ⟨hwire, hagain, hdiffers, hcanonical,
    (reframing_gives_canonical_frame hcanonical []).2 hbody (by decide)⟩

end CabinetBus.Frame
