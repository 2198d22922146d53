-- SUMMARY: When framing succeeds, the canonical frame it answers, and what it leaves in the buffer.
import CabinetBus.Proofs.InBounds
import CabinetBus.Proofs.RoundTrip

/-!
# Framing in a buffer

Room is checked three times: for the checksum, for the escaped body in the working area, and for
the frame in the buffer. Together these ask for one thing, that the escaped body fits the area and
the frame the buffer. The frame is written in one piece over the front; before that nothing but
the two bytes of the checksum is written, so a failure leaves the rest of the buffer alone.
-/

namespace CabinetBus

/-! ## Writes behind and in front -/

namespace Bytes

variable {buffer data : Bytes} {offset : Nat}

/-- Bytes behind what is written stay. -/
theorem drop_overwrite_of_le {count : Nat} (h : offset + data.length ≤ buffer.length)
    (hcount : offset + data.length ≤ count) :
    (buffer.overwrite offset data).drop count = buffer.drop count := by
  obtain ⟨k, rfl⟩ := Nat.exists_eq_add_of_le hcount
  rw [← List.drop_drop, drop_overwrite h, List.drop_drop]

theorem getElem?_overwrite_of_lt {i : Nat} (h : offset + data.length ≤ buffer.length)
    (hi : i < offset) : (buffer.overwrite offset data)[i]? = buffer[i]? := by
  rw [← List.getElem?_take_of_lt hi, take_overwrite h, List.getElem?_take_of_lt hi]

theorem getElem?_overwrite_of_le {i : Nat} (h : offset + data.length ≤ buffer.length)
    (hi : offset + data.length ≤ i) : (buffer.overwrite offset data)[i]? = buffer[i]? := by
  have hdrop := congrArg (·[0]?) (drop_overwrite_of_le h hi)
  simpa [List.getElem?_drop] using hdrop

end Bytes

namespace Frame

/-! ## Escaped bodies -/

/-- Escaping adds a byte for each delimiter. -/
theorem length_escape (body : Bytes) :
    (escape body).length = body.length + body.countP isDelimiter := by
  induction body with
  | nil => rfl
  | cons b rest ih =>
      rw [escape_cons, List.length_append, ih, List.length_cons]
      by_cases hb : isDelimiter b
      · rw [List.countP_cons_of_pos hb, escapeByte, if_pos hb, List.length_cons,
          List.length_singleton]
        omega
      · rw [List.countP_cons_of_neg hb, escapeByte, if_neg hb, List.length_singleton]
        omega

/-- No start or end marker, and behind every escape marker a delimiter with its bit flipped. -/
structure IsCanonical (body : Bytes) : Prop where
  no_start : startMarker ∉ body
  no_end : endMarker ∉ body
  paired : ∀ i, body[i]? = some escapeMarker →
    ∃ b ∈ ([0x22, 0x23, 0x5D] : Bytes), body[i + 1]? = some b

theorem IsCanonical.plain_cons {b : UInt8} {rest : Bytes} (hb : ¬ isDelimiter b)
    (h : IsCanonical rest) : IsCanonical (b :: rest) := by
  obtain ⟨⟨hstart, hend⟩, hescape⟩ : (b ≠ startMarker ∧ b ≠ endMarker) ∧ b ≠ escapeMarker := by
    simpa [isDelimiter] using hb
  refine ⟨?_, ?_, fun i hi => ?_⟩
  · exact List.not_mem_cons_of_ne_of_not_mem hstart.symm h.no_start
  · exact List.not_mem_cons_of_ne_of_not_mem hend.symm h.no_end
  · cases i with
    | zero => exact absurd (Option.some.inj hi) hescape
    | succ i => exact h.paired i hi

theorem IsCanonical.pair_cons {b : UInt8} {rest : Bytes} (hb : isDelimiter b)
    (h : IsCanonical rest) : IsCanonical (escapeMarker :: (b ^^^ escapeMask) :: rest) := by
  obtain ⟨hmem, hstart, hend, hescape⟩ : b ^^^ escapeMask ∈ ([0x22, 0x23, 0x5D] : Bytes) ∧
      startMarker ≠ b ^^^ escapeMask ∧ endMarker ≠ b ^^^ escapeMask ∧
      b ^^^ escapeMask ≠ escapeMarker := by
    obtain (rfl | rfl) | rfl : (b = startMarker ∨ b = endMarker) ∨ b = escapeMarker := by
      simpa [isDelimiter] using hb
    all_goals decide
  refine ⟨?_, ?_, fun i hi => ?_⟩
  · exact List.not_mem_cons_of_ne_of_not_mem (by decide)
      (List.not_mem_cons_of_ne_of_not_mem hstart h.no_start)
  · exact List.not_mem_cons_of_ne_of_not_mem (by decide)
      (List.not_mem_cons_of_ne_of_not_mem hend h.no_end)
  · rcases i with _ | _ | i
    · exact ⟨b ^^^ escapeMask, hmem, rfl⟩
    · exact absurd (Option.some.inj hi) hescape
    · exact h.paired i hi

theorem isCanonical_escape (body : Bytes) : IsCanonical (escape body) := by
  induction body with
  | nil => exact ⟨List.not_mem_nil, List.not_mem_nil, by simp⟩
  | cons b rest ih =>
      rw [escape_cons]
      unfold escapeByte
      split
      · rename_i hb
        exact ih.pair_cons hb
      · rename_i hb
        exact ih.plain_cons hb

/-! ## Framing -/

/-- Framing where there is room for the checksum. -/
theorem encode_of_room {buffer : Bytes} {len : Nat} (hlen : 1 ≤ len)
    (hroom : len + 2 < buffer.length) :
    let content := buffer.slice 1 len
    encode buffer len =
      if (escapedBody content).length ≤ escapeArea ∧
          (escapedBody content).length + 2 ≤ buffer.length then
        ⟨.ok (wireFrame content),
          wireFrame content ++ buffer.drop ((escapedBody content).length + 2)⟩
      else ⟨.error .overflow, buffer.overwrite len (Checksum.bytes (Checksum.of content))⟩ := by
  intro content
  generalize hsum : Checksum.bytes (Checksum.of content) = sum
  have htwo : sum.length = 2 := by rw [← hsum, Checksum.length_bytes]
  have hsource : (buffer.overwrite len sum).slice 1 (len + 2) = content ++ sum := by
    rw [← htwo]
    exact Bytes.slice_overwrite_append hlen (by omega)
  have hbody : escapedBody content = escape (content ++ sum) := by rw [escapedBody, hsum]
  have hlonger := length_escapedBody content
  have hcontent : content.length = len - 1 := by
    rw [Bytes.length_slice]
    omega
  have hwire : (wireFrame content).length = (escapedBody content).length + 2 := by
    rw [wireFrame_eq_enclosed, length_enclosed]
  have hframed : (buffer.overwrite len sum).overwrite 0 (wireFrame content) =
      wireFrame content ++ buffer.drop ((escapedBody content).length + 2) := by
    rw [← @Bytes.drop_overwrite_of_le buffer sum len _ (by omega) (by omega), ← hwire]
    simp [Bytes.overwrite]
  simp only [encode]
  rw [if_neg (by omega), if_neg (by omega), hsum, hsource, escapeWithin_eq, ← hbody]
  -- The body is escaped in an area of its own, so the frame may be written over its source.
  by_cases harea : (escapedBody content).length ≤ escapeArea
  · rw [if_pos harea]
    dsimp only
    by_cases hfits : (escapedBody content).length + 2 ≤ buffer.length
    · rw [if_neg (by omega), if_pos ⟨harea, hfits⟩, ← wireFrame, hframed, ← hwire, List.take_left]
    · rw [if_pos (by omega), if_neg (by omega)]
  · rw [if_neg harea, if_neg (by omega)]

theorem encode_of_no_room {buffer : Bytes} {len : Nat} (hlen : 1 ≤ len)
    (hroom : buffer.length ≤ len + 2) : encode buffer len = ⟨.error .overflow, buffer⟩ := by
  rw [encode, if_neg (by omega), if_pos hroom]

/-- The escaped body of the content fits the working area, and its frame the buffer. -/
def Fits (buffer : Bytes) (len : Nat) : Prop :=
  (escapedBody (buffer.slice 1 len)).length ≤ escapeArea ∧
    (escapedBody (buffer.slice 1 len)).length + 2 ≤ buffer.length

/-- Where the frame fits there is room for the checksum. -/
theorem Fits.room {buffer : Bytes} {len : Nat} (h : Fits buffer len) :
    len + 2 < buffer.length := by
  have hlonger := length_escapedBody (buffer.slice 1 len)
  rw [Bytes.length_slice] at hlonger
  have hfits := h.2
  omega

theorem encode_of_fits {buffer : Bytes} {len : Nat} (hlen : 1 ≤ len) (h : Fits buffer len) :
    encode buffer len = ⟨.ok (wireFrame (buffer.slice 1 len)), wireFrame (buffer.slice 1 len) ++
      buffer.drop ((escapedBody (buffer.slice 1 len)).length + 2)⟩ :=
  (encode_of_room hlen h.room).trans (if_pos h)

/-- A failure leaves all but the bytes of the checksum alone. -/
theorem encode_of_not_fits {buffer : Bytes} {len : Nat} (hlen : 1 ≤ len) (h : ¬ Fits buffer len) :
    ∃ left : Bytes, encode buffer len = ⟨.error .overflow, left⟩ ∧ left.length = buffer.length ∧
      ∀ i, i ≠ len → i ≠ len + 1 → left[i]? = buffer[i]? := by
  by_cases hroom : len + 2 < buffer.length
  · have hsum : len + (Checksum.bytes (Checksum.of (buffer.slice 1 len))).length ≤
        buffer.length := by
      rw [Checksum.length_bytes]
      omega
    refine ⟨_, (encode_of_room hlen hroom).trans (if_neg h), Bytes.length_overwrite hsum,
      fun i hfirst hsecond => ?_⟩
    rcases Nat.lt_or_ge i len with hbefore | hbehind
    · exact Bytes.getElem?_overwrite_of_lt hsum hbefore
    · exact Bytes.getElem?_overwrite_of_le hsum (by rw [Checksum.length_bytes]; omega)
  · exact ⟨buffer, encode_of_no_room hlen (by omega), rfl, fun _ _ _ => rfl⟩

/-- Framing the content at offsets `1` to `len - 1` never leaves its buffers. It fails at once if
the buffer ends before the content does. Otherwise it succeeds exactly if the escaped content and
checksum fit the working area, and these between two markers fit the buffer; the answer is then
canonical and nothing behind it has changed. If it fails, only the two bytes behind the content
may have changed. -/
theorem encode_succeeds_iff_fits {buffer : Bytes} {len : Nat} (hlen : 1 ≤ len)
    (hword : len + 2 < UInt64.size) :
    encode? buffer len = some (encode buffer len) ∧
    (buffer.length < len → encode buffer len = ⟨.error .overflow, buffer⟩) ∧
    (len ≤ buffer.length →
      let content := buffer.slice 1 len
      let body := content ++ Checksum.bytes (Checksum.of content)
      let size := content.length + 2 + body.countP isDelimiter
      ((∃ wire, (encode buffer len).result = .ok wire) ↔
        size ≤ 256 ∧ size + 2 ≤ buffer.length) ∧
      (∀ wire, (encode buffer len).result = .ok wire →
        wire = startMarker :: escape body ++ [endMarker] ∧ wire.length = size + 2 ∧
        IsCanonical (escape body) ∧
        (encode buffer len).buffer = wire ++ buffer.drop (size + 2)) ∧
      (∀ e, (encode buffer len).result = .error e →
        e = .overflow ∧ (encode buffer len).buffer.length = buffer.length ∧
        ∀ i, i ≠ len → i ≠ len + 1 → (encode buffer len).buffer[i]? = buffer[i]?)) := by
  refine ⟨encode?_eq hword, fun hshort => encode_of_no_room hlen (by omega), fun hheld => ?_⟩
  intro content body size
  have hsize : (escapedBody content).length = size := by
    rw [escapedBody, length_escape, List.length_append, Checksum.length_bytes]
  have hfits : Fits buffer len ↔ size ≤ 256 ∧ size + 2 ≤ buffer.length := by
    rw [← hsize]
    rfl
  rw [← hfits]
  by_cases h : Fits buffer len
  · have hwire : (wireFrame content).length = size + 2 := by
      rw [wireFrame_eq_enclosed, length_enclosed, hsize]
    rw [encode_of_fits hlen h]
    refine ⟨⟨fun _ => h, fun _ => ⟨_, rfl⟩⟩, ?_, by rintro e ⟨⟩⟩
    rintro wire ⟨⟩
    exact ⟨rfl, hwire, isCanonical_escape body, by rw [← hsize]⟩
  · obtain ⟨left, hencode, hlength, hsame⟩ := encode_of_not_fits hlen h
    rw [hencode]
    refine ⟨⟨by rintro ⟨_, ⟨⟩⟩, fun hfits => absurd hfits h⟩, by rintro wire ⟨⟩, ?_⟩
    rintro e ⟨⟩
    exact ⟨rfl, hlength, hsame⟩

/-- A content with all three markers fills its buffer to the last byte. In a buffer with one byte
less it is not framed, and is still there. -/
theorem encode_succeeds_iff_fits_markers :
    let full : Bytes := [0x00, 0x99, 0x02, 0x03, 0x7D] ++ Bytes.zeros 6
    let short : Bytes := [0x00, 0x99, 0x02, 0x03, 0x7D] ++ Bytes.zeros 5
    (encode full 5).result =
      .ok [0x02, 0x99, 0x7D, 0x22, 0x7D, 0x23, 0x7D, 0x5D, 0x25, 0x21, 0x03] ∧
    (encode short 5).result = .error .overflow ∧ (encode short 5).buffer[4]? = some 0x7D := by
  intro full short
  obtain ⟨_, _, hheld⟩ := @encode_succeeds_iff_fits full 5 (by decide) (by decide)
  obtain ⟨hiff, hok, _⟩ := hheld (by decide)
  obtain ⟨wire, hwire⟩ := hiff.mpr (by decide +kernel)
  have hframe : startMarker :: escape (full.slice 1 5 ++
      Checksum.bytes (Checksum.of (full.slice 1 5))) ++ [endMarker] =
      [0x02, 0x99, 0x7D, 0x22, 0x7D, 0x23, 0x7D, 0x5D, 0x25, 0x21, 0x03] := by decide +kernel
  obtain ⟨_, _, hheld⟩ := @encode_succeeds_iff_fits short 5 (by decide) (by decide)
  obtain ⟨hiff, _, herror⟩ := hheld (by decide)
  have hnone : ∀ wire, (encode short 5).result ≠ .ok wire := fun wire hok =>
    absurd (hiff.mp ⟨wire, hok⟩) (by decide +kernel)
  cases hshort : (encode short 5).result with
  | ok wire => exact absurd hshort (hnone wire)
  | error e =>
      obtain ⟨rfl, _, hsame⟩ := herror e hshort
      exact ⟨hwire.trans (congrArg _ ((hok wire hwire).1.trans hframe)), rfl,
        hsame 4 (by decide) (by decide)⟩

end Frame

end CabinetBus
