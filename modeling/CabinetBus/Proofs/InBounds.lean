-- SUMMARY: Framing and unframing with every access checked: no check ever fails.
import Mathlib.Data.Nat.PSub
import CabinetBus.Proofs.Unframing

/-!
# Accesses within bounds

Framing and unframing in place read and write at offsets that they compute as they go. Here every
such access is checked, and there is no answer if an offset lies outside its buffer, if a
difference would be negative, or if a length does not fit a machine word. What is shown is that
the checked forms always answer, and answer the same.
-/

namespace CabinetBus

/-! ## Checked accesses -/

namespace Bytes

/-- The bytes at offsets `start` to `stop - 1`, if these are offsets of the buffer. -/
def slice? (buffer : Bytes) (start stop : Nat) : Option Bytes :=
  if start ≤ stop ∧ stop ≤ buffer.length then some (buffer.slice start stop) else none

/-- Writes `data` at `offset`, if there is room for it from there on. -/
def overwrite? (buffer : Bytes) (offset : Nat) (data : Bytes) : Option Bytes :=
  if offset + data.length ≤ buffer.length then some (buffer.overwrite offset data) else none

theorem slice?_eq {buffer : Bytes} {start stop : Nat} (hstart : start ≤ stop)
    (hstop : stop ≤ buffer.length) : buffer.slice? start stop = some (buffer.slice start stop) :=
  if_pos ⟨hstart, hstop⟩

theorem overwrite?_eq {buffer data : Bytes} {offset : Nat}
    (h : offset + data.length ≤ buffer.length) :
    buffer.overwrite? offset data = some (buffer.overwrite offset data) := if_pos h

/-- A write behind the front takes the place of as many bytes. -/
theorem overwrite_append (front free data : Bytes) :
    overwrite (front ++ free) front.length data = front ++ data ++ free.drop data.length := by
  simp [overwrite, List.drop_append]

/-- Copies `body` behind the first byte, and then writes the bytes before and behind it. -/
def enclose? (buffer : Bytes) (first : UInt8) (body : Bytes) (last : UInt8) : Option Bytes := do
  let copied ← buffer.overwrite? 1 body
  let opened ← copied.overwrite? 0 [first]
  opened.overwrite? (1 + body.length) [last]

/-- The three writes are one. -/
theorem enclose?_eq {buffer body : Bytes} (first last : UInt8)
    (h : body.length + 2 ≤ buffer.length) :
    buffer.enclose? first body last = some (buffer.overwrite 0 (first :: body ++ [last])) := by
  have hcopied : (buffer.overwrite 1 body).length = buffer.length := length_overwrite (by omega)
  have hopened : ((buffer.overwrite 1 body).overwrite 0 [first]).length = buffer.length := by
    rw [length_overwrite (by rw [List.length_singleton]; omega), hcopied]
  have hcopy : buffer.overwrite? 1 body = some (buffer.overwrite 1 body) :=
    overwrite?_eq (by omega)
  have hopen := @overwrite?_eq (buffer.overwrite 1 body) [first] 0
    (by rw [List.length_singleton]; omega)
  have hclose := @overwrite?_eq ((buffer.overwrite 1 body).overwrite 0 [first]) [last]
    (1 + body.length) (by rw [List.length_singleton]; omega)
  simp only [enclose?, hcopy, hopen, hclose, Option.bind_eq_bind, Option.bind_some,
    Option.some.injEq]
  obtain ⟨b, rest, rfl⟩ := List.exists_cons_of_length_pos (show 0 < buffer.length by omega)
  have hfront : overwrite (overwrite (b :: rest) 1 body) 0 [first] =
      (first :: body) ++ rest.drop body.length := by
    simp [overwrite, Nat.add_comm 1]
  have hclosed := overwrite_append (first :: body) (rest.drop body.length) [last]
  rw [List.length_cons, Nat.add_comm] at hclosed
  rw [hfront, hclosed, List.drop_drop]
  simp [overwrite]

end Bytes

namespace Frame

/-! ## Checksums -/

/-- The checksum of an unframed frame, with its parts read where they should be. -/
def checkChecksum? (decoded : Bytes) : Option (Except FrameError Unit) :=
  if decoded.length < 4 then some (.error .invalidBuffer)
  else do
    let stop ← decoded.length.psub 3
    let expected := Checksum.of (← decoded.slice? 1 stop)
    let trailer ← decoded.slice? stop (stop + 2)
    let actual := Checksum.ofBytes (← trailer[0]?) (← trailer[1]?)
    return if expected = actual then .ok () else .error (.checksum expected actual)

/-- Four bytes or more have room for the ends and a pair before the last. -/
theorem exists_eq_closed_pair {decoded : Bytes} (h : 4 ≤ decoded.length) :
    ∃ first content high low last,
      decoded = first :: (content ++ [high, low]) ++ [last] := by
  obtain ⟨first, rest, rfl⟩ := List.exists_cons_of_length_pos (show 0 < decoded.length by omega)
  rcases List.eq_nil_or_concat rest with rfl | ⟨body, last, rfl⟩
  · simp at h
  · rw [List.length_cons, List.length_concat] at h
    obtain ⟨content, high, low, rfl⟩ := exists_eq_append_pair (show 2 ≤ body.length by omega)
    exact ⟨first, content, high, low, last, by simp⟩

theorem checkChecksum?_eq (decoded : Bytes) :
    checkChecksum? decoded = some (checkChecksum decoded) := by
  unfold checkChecksum?
  split
  · rename_i hshort
    rw [checkChecksum, computedChecksum?, if_pos hshort]
  · rename_i hlong
    obtain ⟨first, content, high, low, last, rfl⟩ := exists_eq_closed_pair (Nat.le_of_not_lt hlong)
    have hlen : (first :: (content ++ [high, low]) ++ [last]).length = content.length + 4 := by
      simp
    have hstop : (content.length + 4).psub 3 = some (content.length + 1) :=
      Nat.psub_eq_sub (by omega)
    have hcontent : Bytes.slice? (first :: (content ++ [high, low]) ++ [last]) 1
        (content.length + 1) = some content := by
      rw [Bytes.slice?_eq (by omega) (by omega)]
      simp [Bytes.slice]
    have htrailer : Bytes.slice? (first :: (content ++ [high, low]) ++ [last])
        (content.length + 1) (content.length + 1 + 2) = some [high, low] := by
      rw [Bytes.slice?_eq (by omega) (by omega)]
      simp [Bytes.slice, List.drop_take]
    rw [checkChecksum_eq, hlen, hstop]
    simp only [Option.bind_eq_bind, Option.bind_some, hcontent, htrailer]
    rfl

/-! ## Framing -/

/-- Escapes into `area` from offset `len` on, and says how far that went. -/
def escapeInto? (area : Bytes) (len : Nat) : Bytes → Option (Except FrameError (Bytes × Nat))
  | [] => some (.ok (area, len))
  | b :: rest =>
      if escapeArea < len + (escapeByte b).length then some (.error .overflow)
      else do escapeInto? (← area.overwrite? len (escapeByte b)) (len + (escapeByte b).length) rest

/-- Writes an escaped body between its markers over the front of the buffer. -/
def writeFrame? (buffer body : Bytes) : Option OnBuffer := do
  let framed ← buffer.enclose? startMarker body endMarker
  return ⟨.ok (← framed.slice? 0 (body.length + 2)), framed⟩

/-- Framing with its accesses checked. -/
def encode? (buffer : Bytes) (len : Nat) : Option OnBuffer :=
  if len = 0 then some ⟨.error .invalidBuffer, buffer⟩
  else if UInt64.size ≤ len + 2 then none
  else if buffer.length ≤ len + 2 then some ⟨.error .overflow, buffer⟩
  else do
    let content ← buffer.slice? 1 len
    let summed ← buffer.overwrite? len (Checksum.bytes (Checksum.of content))
    match ← escapeInto? (Bytes.zeros escapeArea) 0 (← summed.slice? 1 (len + 2)) with
    | .error e => return ⟨.error e, summed⟩
    | .ok (area, escaped) =>
        if summed.length < escaped + 2 then return ⟨.error .overflow, summed⟩
        else writeFrame? summed (← area.slice? 0 escaped)

/-- The area behind what is escaped already is the room for the rest. -/
theorem escapeInto?_eq {front free : Bytes} (harea : front.length + free.length = escapeArea)
    (source : Bytes) :
    escapeInto? (front ++ free) front.length source =
      some ((escapeWithin free.length source).map fun escaped =>
        (front ++ escaped ++ free.drop escaped.length, front.length + escaped.length)) := by
  induction source generalizing front free with
  | nil => simp [escapeInto?, escapeWithin, Except.map]
  | cons b rest ih =>
      rw [escapeInto?, escapeWithin]
      by_cases hroom : (escapeByte b).length ≤ free.length
      · have hwrite : (front ++ free).overwrite? front.length (escapeByte b) =
            some (front ++ escapeByte b ++ free.drop (escapeByte b).length) := by
          rw [Bytes.overwrite?_eq (by rw [List.length_append]; omega), Bytes.overwrite_append]
        have hrest := @ih (front ++ escapeByte b) (free.drop (escapeByte b).length)
          (by rw [List.length_append, List.length_drop]; omega)
        rw [List.length_append, List.length_drop] at hrest
        rw [if_neg (by omega), hwrite, if_pos hroom]
        simp only [Option.bind_eq_bind, Option.bind_some, hrest]
        cases escapeWithin (free.length - (escapeByte b).length) rest with
        | error e => rfl
        | ok escaped => simp [Except.map, Nat.add_comm, Nat.add_left_comm]
      · rw [if_pos (by omega), if_neg hroom]
        rfl

/-- The escaped bytes stand at the front of the area. -/
theorem escapeInto?_zeros (source : Bytes) :
    escapeInto? (Bytes.zeros escapeArea) 0 source =
      some ((escapeWithin escapeArea source).map fun escaped =>
        (escaped ++ (Bytes.zeros escapeArea).drop escaped.length, escaped.length)) := by
  have harea : ([] : Bytes).length + (Bytes.zeros escapeArea).length = escapeArea := by simp
  simpa using escapeInto?_eq harea source

theorem slice?_area (body : Bytes) :
    Bytes.slice? (body ++ (Bytes.zeros escapeArea).drop body.length) 0 body.length = some body := by
  rw [Bytes.slice?_eq (Nat.zero_le _) (by rw [List.length_append]; omega)]
  simp [Bytes.slice]

theorem writeFrame?_eq {buffer body : Bytes} (h : body.length + 2 ≤ buffer.length) :
    writeFrame? buffer body =
      some ⟨.ok ((buffer.overwrite 0 (startMarker :: body ++ [endMarker])).take (body.length + 2)),
        buffer.overwrite 0 (startMarker :: body ++ [endMarker])⟩ := by
  have hlength : (buffer.overwrite 0 (startMarker :: body ++ [endMarker])).length =
      buffer.length := Bytes.length_overwrite (by simp; omega)
  have hanswer := Bytes.slice?_eq (Nat.zero_le (body.length + 2)) (hlength ▸ h)
  simp only [writeFrame?, Bytes.enclose?_eq startMarker endMarker h, hanswer, Option.bind_eq_bind,
    Option.bind_some]
  rfl

/-- Framing stays within its buffers. -/
theorem encode?_eq {buffer : Bytes} {len : Nat} (hword : len + 2 < UInt64.size) :
    encode? buffer len = some (encode buffer len) := by
  unfold encode? encode
  rw [if_neg (Nat.not_le.mpr hword)]
  split
  · rfl
  · split
    · rfl
    · rename_i hlen hroom
      have hcontent : buffer.slice? 1 len = some (buffer.slice 1 len) :=
        Bytes.slice?_eq (by omega) (by omega)
      generalize hsum : Checksum.bytes (Checksum.of (buffer.slice 1 len)) = sum
      have htwo : sum.length = 2 := by rw [← hsum, Checksum.length_bytes]
      have hwrite : buffer.overwrite? len sum = some (buffer.overwrite len sum) :=
        Bytes.overwrite?_eq (by omega)
      have hsummed : (buffer.overwrite len sum).length = buffer.length :=
        Bytes.length_overwrite (by omega)
      have hsource : (buffer.overwrite len sum).slice? 1 (len + 2) =
          some ((buffer.overwrite len sum).slice 1 (len + 2)) :=
        Bytes.slice?_eq (by omega) (by omega)
      simp only [hcontent, hsum, hwrite, hsource, escapeInto?_zeros, Option.bind_eq_bind,
        Option.bind_some]
      cases escapeWithin escapeArea ((buffer.overwrite len sum).slice 1 (len + 2)) with
      | error e => rfl
      | ok body =>
          dsimp only [Except.map]
          rw [hsummed]
          split
          · rfl
          · rename_i hfits
            rw [slice?_area, Option.bind_some, writeFrame?_eq (by omega)]

/-! ## Unframing in place -/

namespace InPlace

/-- Writes the byte if its place is one of the buffer. -/
def put? (s : InPlace) (b : UInt8) : Option InPlace :=
  if s.target < s.buffer.size then some (s.put b) else none

/-- Takes the byte at offset `source` if there is one. -/
def step? (s : InPlace) (source : Nat) : Option InPlace := do
  let b ← s.buffer[source]?
  if s.escaped then s.put? (b ^^^ escapeMask)
  else if b = escapeMarker then return { s with escaped := true }
  else s.put? b

theorem step?_eq {s : InPlace} {source : Nat} (htarget : s.target ≤ source)
    (hsource : source < s.buffer.size) : s.step? source = some (s.step source) := by
  have hput (b : UInt8) : s.put? b = some (s.put b) := if_pos (by omega)
  rw [step?, step, Array.getElem?_eq_getElem hsource, Array.getD_eq_getD_getElem?,
    Array.getElem?_eq_getElem hsource]
  simp only [Option.bind_eq_bind, Option.bind_some, Option.getD_some, hput]
  split
  · rfl
  · split <;> rfl

/-- A step writes one byte at most, within the buffer. -/
theorem step_bounds (s : InPlace) (source : Nat) :
    (s.step source).target ≤ s.target + 1 ∧ (s.step source).buffer.size = s.buffer.size := by
  have hput (b : UInt8) : (s.put b).target ≤ s.target + 1 ∧
      (s.put b).buffer.size = s.buffer.size := ⟨Nat.le_refl _, size_put s b⟩
  unfold step
  dsimp only
  split
  · exact hput _
  · split
    · exact ⟨Nat.le_succ _, rfl⟩
    · exact hput _

/-- Every step reads within the buffer and writes no further than it has read. -/
theorem foldlM_step?_eq {s : InPlace} {start count : Nat} (htarget : s.target ≤ start)
    (hend : start + count ≤ s.buffer.size) :
    (List.range' start count).foldlM step? s = some ((List.range' start count).foldl step s) := by
  induction count generalizing s start with
  | zero => rfl
  | succ count ih =>
      -- The target may catch up with the byte just read, but not with the next one.
      obtain ⟨hnext, hsize⟩ := step_bounds s start
      rw [List.range'_succ, List.foldlM_cons, List.foldl_cons, step?_eq htarget (by omega)]
      exact ih (by omega) (by omega)

/-- Over many steps the target stays behind the bytes still to be read. -/
theorem foldl_step_bounds {s : InPlace} {start count : Nat} (htarget : s.target ≤ start) :
    ((List.range' start count).foldl step s).target ≤ start + count ∧
      ((List.range' start count).foldl step s).buffer.size = s.buffer.size := by
  induction count generalizing s start with
  | zero => exact ⟨htarget, rfl⟩
  | succ count ih =>
      obtain ⟨hnext, hsize⟩ := step_bounds s start
      obtain ⟨hlast, hsame⟩ := ih (show (s.step start).target ≤ start + 1 by omega)
      rw [List.range'_succ, List.foldl_cons]
      exact ⟨by omega, hsame.trans hsize⟩

/-- The pass over a frame leaves room for the end marker. -/
theorem ofFrame_bounds {buffer : Bytes} (h : 2 ≤ buffer.length) :
    (ofFrame buffer).target < buffer.length ∧ (ofFrame buffer).buffer.size = buffer.length := by
  obtain ⟨htarget, hsize⟩ := @foldl_step_bounds ⟨buffer.toArray, 1, false⟩ 1 (buffer.length - 2)
    (Nat.le_refl 1)
  exact ⟨Nat.lt_of_le_of_lt htarget (by omega), hsize⟩

end InPlace

/-- The markers, each read where it should be. -/
def checkMarkers? (wire : Bytes) : Option (Except FrameError Unit) :=
  if wire.length ≤ overhead then some (.error .invalidBuffer)
  else do
    if (← wire[0]?) ≠ startMarker then return .error .invalidStart
    if (← wire[← wire.length.psub 1]?) ≠ endMarker then return .error .invalidEnd
    return .ok ()

/-- Unframing in place with its accesses checked. -/
def decode? (buffer : Bytes) : Option OnBuffer := do
  match ← checkMarkers? buffer with
  | .error e => return ⟨.error e, buffer⟩
  | .ok () =>
      let last ← buffer.length.psub 1
      let s ← (List.range' 1 (last - 1)).foldlM InPlace.step? ⟨buffer.toArray, 1, false⟩
      let closed ← s.put? endMarker
      let decoded ← Bytes.slice? closed.buffer.toList 0 (s.target + 1)
      match ← checkChecksum? decoded with
      | .error e => return ⟨.error e, closed.buffer.toList⟩
      | .ok () => return ⟨.ok decoded, closed.buffer.toList⟩

theorem checkMarkers?_eq (wire : Bytes) : checkMarkers? wire = some (checkMarkers wire) := by
  unfold checkMarkers? checkMarkers
  split
  · rfl
  · rename_i hlen
    rw [overhead] at hlen
    have hfirst : wire[0]? = some wire[0] := List.getElem?_eq_getElem (by omega)
    have hlast : wire[wire.length - 1]? = some wire[wire.length - 1] :=
      List.getElem?_eq_getElem (by omega)
    rw [List.head?_eq_getElem?, List.getLast?_eq_getElem?, Nat.psub_eq_sub (by omega)]
    simp only [Option.bind_eq_bind, Option.bind_some, hfirst, hlast, ne_eq, Option.some.injEq]
    split
    · rfl
    · split <;> rfl

/-- Unframing in place stays within its buffer. -/
theorem decode?_eq (buffer : Bytes) : decode? buffer = some (decode buffer) := by
  rw [decode?, checkMarkers?_eq, decode]
  cases hmarkers : checkMarkers buffer with
  | error e => rfl
  | ok =>
      obtain ⟨body, hbody, hwire⟩ := (checkMarkers_eq_ok_iff buffer).mp hmarkers
      have hlen : buffer.length = body.length + 2 := by rw [hwire, length_enclosed]
      have hlast : buffer.length.psub 1 = some (buffer.length - 1) := Nat.psub_eq_sub (by omega)
      have hpass : (List.range' 1 (buffer.length - 1 - 1)).foldlM InPlace.step?
          ⟨buffer.toArray, 1, false⟩ = some (InPlace.ofFrame buffer) :=
        InPlace.foldlM_step?_eq (Nat.le_refl 1) (show 1 + _ ≤ buffer.length by omega)
      obtain ⟨htarget, hsize⟩ := @InPlace.ofFrame_bounds buffer (by omega)
      have hput : (InPlace.ofFrame buffer).put? endMarker =
          some ((InPlace.ofFrame buffer).put endMarker) := if_pos (by omega)
      have hclosed : ((InPlace.ofFrame buffer).put endMarker).buffer.toList.length =
          buffer.length := by
        rw [Array.length_toList, InPlace.size_put, hsize]
      have hdecoded := @Bytes.slice?_eq ((InPlace.ofFrame buffer).put endMarker).buffer.toList 0
        ((InPlace.ofFrame buffer).target + 1) (Nat.zero_le _) (by omega)
      simp only [hlast, hpass, hput, hdecoded, checkChecksum?_eq, Option.bind_eq_bind,
        Option.bind_some]
      rw [Bytes.slice, List.drop_zero]
      cases checkChecksum (((InPlace.ofFrame buffer).put endMarker).buffer.toList.take
        ((InPlace.ofFrame buffer).target + 1)) <;> rfl

end Frame

end CabinetBus
