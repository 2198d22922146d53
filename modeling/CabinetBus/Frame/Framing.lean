-- SUMMARY: Framing in a caller-provided buffer of fixed capacity.
import CabinetBus.Error
import CabinetBus.Frame.Marker
import CabinetBus.Frame.Checksum

/-! # Framing

A frame on the wire is the start marker, the escaped body, and the end marker.
The body is an identifier, a payload, and their checksum with the high byte
first. Framing works inside a buffer that the caller provides, and answers with
that buffer as it leaves it, also when it fails. -/

namespace CabinetBus.Frame

/-- The answer of an operation on a buffer, and the buffer it leaves. -/
structure OnBuffer where
  result : Except FrameError Bytes
  buffer : Bytes

/-- Room for an escaped body. -/
def escapeArea : Nat := 256

/-! ## Escaping with a limit -/

/-- Escapes into an area with `room` bytes left. -/
def escapeWithin (room : Nat) : Bytes → Except FrameError Bytes
  | [] => .ok []
  | b :: rest =>
      if (escapeByte b).length ≤ room then
        match escapeWithin (room - (escapeByte b).length) rest with
        | .ok escaped => .ok (escapeByte b ++ escaped)
        | .error e => .error e
      else .error .overflow

/-! ## Framing -/

/-- What stands between the markers of a frame: content and checksum, escaped. -/
def escapedBody (content : Bytes) : Bytes :=
  escape (content ++ Checksum.bytes (Checksum.of content))

/-- The frame of a content as it is on the wire. -/
def wireFrame (content : Bytes) : Bytes := startMarker :: escapedBody content ++ [endMarker]

/-- Frames the content held in `buffer` at offsets `1` to `len - 1`. The checksum
is written behind the content before anything can overflow the escape area, and
the frame is written over the front of the buffer only when all of it fits. -/
def encode (buffer : Bytes) (len : Nat) : OnBuffer :=
  if len = 0 then ⟨.error .invalidBuffer, buffer⟩
  else if buffer.length ≤ len + 2 then ⟨.error .overflow, buffer⟩
  else
    let crc := Checksum.of (buffer.slice 1 len)
    let summed := buffer.overwrite len (Checksum.bytes crc)
    match escapeWithin escapeArea (summed.slice 1 (len + 2)) with
    | .error e => ⟨.error e, summed⟩
    | .ok body =>
        if buffer.length < body.length + 2 then ⟨.error .overflow, summed⟩
        else
          let framed := summed.overwrite 0 (startMarker :: body ++ [endMarker])
          ⟨.ok (framed.take (body.length + 2)), framed⟩

/-! ## Laws -/

/-- The escape area overflows exactly when the whole escaped body exceeds it. -/
theorem escapeWithin_eq (room : Nat) (body : Bytes) :
    escapeWithin room body =
      if (escape body).length ≤ room then .ok (escape body) else .error .overflow := by
  induction body generalizing room with
  | nil => simp [escapeWithin]
  | cons b rest ih =>
      simp only [escapeWithin, escape_cons, List.length_append]
      by_cases hb : (escapeByte b).length ≤ room
      · rw [if_pos hb, ih]
        by_cases hrest : (escape rest).length ≤ room - (escapeByte b).length
        · rw [if_pos hrest, if_pos (by omega)]
        · rw [if_neg hrest, if_neg (by omega)]
      · rw [if_neg hb, if_neg (by omega)]

theorem length_escapedBody (content : Bytes) :
    content.length + 2 ≤ (escapedBody content).length := by
  have := length_le_length_escape (content ++ Checksum.bytes (Checksum.of content))
  rwa [List.length_append, Checksum.length_bytes] at this

/-- What framing answers, by the content alone. -/
theorem result_encode (buffer : Bytes) (len : Nat) :
    (encode buffer len).result =
      if len = 0 then .error .invalidBuffer
      else if buffer.length ≤ len + 2 then .error .overflow
      else
        let content := buffer.slice 1 len
        if escapeArea < (escapedBody content).length ∨
            buffer.length < (escapedBody content).length + 2 then .error .overflow
        else .ok (wireFrame content) := by
  unfold encode
  split
  · rfl
  · split
    · rfl
    · rename_i hlen hroom
      have hslice := @Bytes.slice_overwrite_append buffer
        (Checksum.bytes (Checksum.of (buffer.slice 1 len))) 1 len (by omega)
        (by rw [Checksum.length_bytes]; omega)
      rw [Checksum.length_bytes] at hslice
      simp only [hslice, escapeWithin_eq]
      rw [← escapedBody]
      by_cases harea : (escapedBody (buffer.slice 1 len)).length ≤ escapeArea
      · rw [if_pos harea]
        by_cases hfits : buffer.length < (escapedBody (buffer.slice 1 len)).length + 2
        · rw [if_pos (Or.inr hfits)]
          simp only [if_pos hfits]
        · rw [if_neg (by omega)]
          simp only [if_neg hfits, Except.ok.injEq]
          simpa [wireFrame] using Bytes.take_overwrite_zero
            (buffer.overwrite len (Checksum.bytes (Checksum.of (buffer.slice 1 len))))
            (wireFrame (buffer.slice 1 len))
      · rw [if_neg harea, if_pos (Or.inl (by omega))]

/-- Framing looks at no more of a buffer than holds the largest frame. -/
theorem result_encode_take (buffer : Bytes) (len : Nat) :
    (encode (buffer.take (escapeArea + 2)) len).result = (encode buffer len).result := by
  rw [result_encode, result_encode, List.length_take]
  by_cases hzero : len = 0
  · rw [if_pos hzero, if_pos hzero]
  rw [if_neg hzero, if_neg hzero]
  by_cases hroom : buffer.length ≤ len + 2
  · rw [if_pos hroom, if_pos (by omega)]
  rw [if_neg hroom]
  have hbody := length_escapedBody (buffer.slice 1 len)
  rw [Bytes.length_slice] at hbody
  by_cases hlen : len < escapeArea
  · have hiff : (escapeArea < (escapedBody (buffer.slice 1 len)).length ∨
          min (escapeArea + 2) buffer.length < (escapedBody (buffer.slice 1 len)).length + 2) ↔
        (escapeArea < (escapedBody (buffer.slice 1 len)).length ∨
          buffer.length < (escapedBody (buffer.slice 1 len)).length + 2) := by
      omega
    rw [if_neg (by omega), Bytes.slice_take (by omega)]
    simp only [hiff]
  · rw [if_pos (by omega), if_pos (Or.inl (by omega))]

end CabinetBus.Frame
