-- SUMMARY: What a writer answers to each request, after any others, and what a reader makes of it.
import CabinetBus.Message.Request
import CabinetBus.Proofs.Loading
import CabinetBus.Proofs.Outbound
import CabinetBus.Proofs.RoundTrip
import CabinetBus.Proofs.Words

/-!
# Requests on the wire

A writer builds every request in one scratch buffer, over what the last frame left there. Only
the length of that buffer takes part in framing, and it never changes, so each request is
answered as if it were the first. Its frame is short enough for every buffer of a service, and a
frame with a payload is read back to the request that it was written for.
-/

namespace CabinetBus

/-! ## Written bytes -/

/-- A cursor that has written `data`, and nothing else, to the front of `buffer`. -/
structure Cursor.Wrote (c : Cursor) (buffer data : Bytes) : Prop where
  error : c.error = none
  writePos : c.writePos = data.length
  buffer : c.buffer = buffer.overwrite 0 data

namespace Cursor.Wrote

variable {c : Cursor} {buffer data : Bytes}

theorem writer (buffer : Bytes) : (Cursor.writer buffer).Wrote buffer [] :=
  ⟨rfl, rfl, by simp [Cursor.writer, Cursor.reader, Bytes.overwrite]⟩

theorem put (h : c.Wrote buffer data) {more : Bytes}
    (hfits : (data ++ more).length ≤ buffer.length) : (c.put more).Wrote buffer (data ++ more) := by
  rw [List.length_append] at hfits
  have hroom : ¬ c.buffer.length < c.writePos + more.length := by
    rw [h.buffer, Bytes.length_overwrite (by omega), h.writePos]
    omega
  simp only [Cursor.put, h.error, if_neg hroom]
  refine ⟨rfl, ?_, ?_⟩
  · rw [h.writePos, List.length_append]
  · rw [h.writePos, h.buffer, Bytes.overwrite_overwrite_append]

/-- What was written behind the first byte is what framing takes for the content. -/
theorem slice_one {b : UInt8} (h : c.Wrote buffer (b :: data)) :
    c.buffer.slice 1 c.writePos = data := by
  rw [h.writePos, h.buffer, Bytes.slice, Bytes.take_overwrite_zero, List.drop_one, List.tail_cons]

end Cursor.Wrote

namespace Request

variable {c : Cursor} {buffer data : Bytes}

theorem wrote_writeByte (h : c.Wrote buffer data) {b : UInt8}
    (hfits : (data ++ [b]).length ≤ buffer.length) :
    (writeByte b c).Wrote buffer (data ++ [b]) := by
  have hword : ByteOrder.big.word 1 b.toNat = [b] := by
    simp [ByteOrder.word, Bytes.littleWord]
  rw [writeByte, Cursor.writeWord, hword]
  exact h.put hfits

/-- The payload fields are written as the payload. -/
theorem wrote_writePayload (h : c.Wrote buffer data) {request : Request}
    (hfits : (data ++ request.payload).length ≤ buffer.length) :
    (request.writePayload c).Wrote buffer (data ++ request.payload) := by
  cases request with
  | staticStatus | dynamicStatus => simpa [payload, writePayload] using h
  | detect calls => exact h.put hfits
  | configure flags =>
      have hfirst : (data ++ [0x01]).length ≤ buffer.length := by
        simp only [payload, List.length_append, List.length_cons, List.length_nil] at hfits ⊢
        omega
      have hboth := wrote_writeByte (wrote_writeByte h hfirst) (b := flags)
        (by simpa [payload] using hfits)
      simpa [payload, writePayload] using hboth
  | biuDiagnostics reset | sdlcDiagnostics reset | siuDiagnostics reset =>
      exact wrote_writeByte h hfits

/-! ## Contents -/

/-- What stands before the checksum in the frame of a request. -/
def content (request : Request) : Bytes := request.identifier.toByte :: request.payload

theorem length_content_le (request : Request) : request.content.length ≤ 9 := by
  cases request <;> simp [content, payload]

theorem ofByte_toByte_identifier (request : Request) :
    Identifier.ofByte request.identifier.toByte = request.identifier := by
  cases request <;> rfl

theorem escapeByte_identifier (request : Request) :
    Frame.escapeByte request.identifier.toByte = [request.identifier.toByte] := by
  cases request <;> rfl

end Request

/-! ## Room -/

theorem Frame.length_escapeByte_le (b : UInt8) : (escapeByte b).length ≤ 2 := by
  unfold escapeByte
  split <;> simp

theorem Frame.length_escape_le (body : Bytes) : (escape body).length ≤ 2 * body.length := by
  induction body with
  | nil => simp
  | cons b rest ih =>
      have := length_escapeByte_le b
      rw [escape_cons, List.length_append, List.length_cons]
      omega

/-- The longest frame of a request. -/
def Request.maxWire : Nat := 23

/-- The identifier of a request is sent as it is, so nothing before it is on the wire but the
start marker. -/
theorem Request.escapedBody_content (request : Request) :
    Frame.escapedBody request.content = request.identifier.toByte ::
      Frame.escape (request.payload ++
        Frame.Checksum.bytes (Frame.Checksum.of request.content)) := by
  rw [Frame.escapedBody]
  nth_rewrite 1 [content]
  rw [List.cons_append, Frame.escape_cons, escapeByte_identifier, List.singleton_append]

theorem Request.length_escapedBody_le (request : Request) :
    (Frame.escapedBody request.content).length + 2 ≤ maxWire := by
  have hcontent := request.length_content_le
  have hescape := Frame.length_escape_le
    (request.payload ++ Frame.Checksum.bytes (Frame.Checksum.of request.content))
  rw [List.length_append, Frame.Checksum.length_bytes] at hescape
  rw [content, List.length_cons] at hcontent
  rw [escapedBody_content, List.length_cons, maxWire]
  omega

/-! ## One request -/

/-- The start marker and the content are written to the front of the scratch buffer. -/
theorem Request.wrote_content {scratch : Bytes} (h : scratch.length = RequestWriter.scratchSize)
    (request : Request) :
    (request.writePayload (writeByte request.identifier.toByte
      (writeByte Frame.startMarker (Cursor.writer scratch)))).Wrote scratch
      (Frame.startMarker :: request.content) := by
  have hlength := request.length_content_le
  rw [content, List.length_cons] at hlength
  rw [RequestWriter.scratchSize] at h
  have hroom : ([Frame.startMarker, request.identifier.toByte] ++ request.payload).length ≤
      scratch.length := by
    simp only [List.length_append, List.length_cons, List.length_nil]
    omega
  have hopened : (writeByte Frame.startMarker (Cursor.writer scratch)).Wrote scratch
      [Frame.startMarker] :=
    wrote_writeByte (.writer scratch) (by simp [h])
  have hnamed : (writeByte request.identifier.toByte
      (writeByte Frame.startMarker (Cursor.writer scratch))).Wrote scratch
      [Frame.startMarker, request.identifier.toByte] :=
    wrote_writeByte hopened (by simp [h])
  exact wrote_writePayload hnamed hroom

/-- A writer with its scratch buffer answers with the frame of the request, and leaves it at
the front of that buffer. -/
theorem RequestWriter.write_of_scratch {w : RequestWriter} (h : w.scratch.length = scratchSize)
    (request : Request) :
    let answer := w.write request
    let wire := Frame.wireFrame request.content
    answer.1 = .ok wire ∧ answer.2.scratch.length = scratchSize ∧
      answer.2.scratch.take wire.length = wire := by
  intro answer wire
  have hlength := request.length_content_le
  have hbody := request.length_escapedBody_le
  have hwrote := request.wrote_content h
  set written := request.writePayload _ with hwritten
  rw [scratchSize] at h
  rw [Request.maxWire] at hbody
  have hbuffer : written.buffer.length = 64 := by
    rw [hwrote.buffer, Bytes.length_overwrite, h]
    rw [List.length_cons]
    omega
  have hframed : (Frame.encode written.buffer written.writePos).result = .ok wire := by
    rw [Frame.encode_eq_ok_iff, hwrote.slice_one, hwrote.writePos, hbuffer, Frame.escapeArea,
      List.length_cons]
    exact ⟨by omega, by omega, by omega, by omega, rfl⟩
  have hanswer : answer =
      (.ok wire, ⟨(Frame.encode written.buffer written.writePos).buffer⟩) := by
    simp only [answer, write, ← hwritten, hwrote.error, hframed]
  rw [hanswer]
  exact ⟨rfl, by rw [Frame.length_buffer_encode, hbuffer, scratchSize],
    Frame.take_buffer_encode hframed⟩

/-- With the frame of a request at the front, the second byte is its identifier. -/
theorem RequestWriter.identifier_of_take {w : RequestWriter} {request : Request} {length : Nat}
    (h : w.scratch.take length = Frame.wireFrame request.content) :
    w.identifier = request.identifier := by
  have hsecond : w.scratch.getD 1 0 = request.identifier.toByte := by
    rw [← List.take_append_drop length w.scratch, h, Frame.wireFrame, request.escapedBody_content]
    rfl
  rw [identifier, hsecond, request.ofByte_toByte_identifier]

/-- A service omits nothing that fits its buffers. -/
theorem Service.volume_omitted_write {η : Type} (s : Service η) {data : Bytes}
    (h : data.length ≤ MessageBuffer.capacity) :
    (s.write data).tally.volume .omitted = s.tally.volume .omitted := by
  have hverdict : s.admission data ≠ some .omitted := by
    intro hverdict
    rw [admission, if_neg (Nat.not_lt.mpr h)] at hverdict
    split at hverdict
    · cases hverdict
    · split at hverdict <;> cases hverdict
  rw [volume_write, if_neg hverdict, add_zero]

/-! ## Reading requests -/

/-- The request that an identifier and a payload spell. -/
def Request.ofPayload? : Identifier → Bytes → Option Request
  | .staticStatusRequest, [] => some .staticStatus
  | .sendDetectData, [a, b, c, d, e, f, g, h] =>
      some (.detect (UInt64.ofNat (ByteOrder.little.value [a, b, c, d, e, f, g, h])))
  | .configBiuRequest, [0x01, flags] => some (.configure flags)
  | .biuDiagnosticRequest, [reset] => some (.biuDiagnostics reset)
  | .sdlcDiagnosticRequest, [reset] => some (.sdlcDiagnostics reset)
  | .dynamicStatusRequest, [] => some .dynamicStatus
  | .siuDiagnosticRequest, [reset] => some (.siuDiagnostics reset)
  | _, _ => none

theorem Request.ofPayload?_payload (request : Request) :
    ofPayload? request.identifier request.payload = some request := by
  cases request with
  | detect calls =>
      have hvalue : ByteOrder.little.value (ByteOrder.little.word 8 calls.toNat) = calls.toNat := by
        rw [ByteOrder.value_word]
        exact Nat.mod_eq_of_lt calls.toNat_lt
      change some (detect (UInt64.ofNat
        (ByteOrder.little.value (ByteOrder.little.word 8 calls.toNat)))) = _
      rw [hvalue, UInt64.ofNat_toNat]
  | _ => rfl

theorem Frame.payload_unframed (identifier : UInt8) (payload : Bytes) :
    Frame.payload (unframed (identifier :: payload)) = payload := by
  have hlength := length_unframed (identifier :: payload)
  rw [List.length_cons] at hlength
  rw [Frame.payload_eq_slice (by rw [overhead]; omega), hlength]
  simp [Bytes.slice, unframed, enclosed, Checksum.bytes]

/-- A frame with a payload is long enough to be unframed, into the room of every reader. -/
theorem Request.load_wireFrame {request : Request} (h : request.payload ≠ [])
    (loads : List ReportReader.Load) :
    let answer := (ReportReader.empty.performAll loads).load (Frame.wireFrame request.content)
    answer.1 = .ok () ∧ answer.2.frame = Frame.unframed request.content := by
  have hpos := List.length_pos_of_ne_nil h
  have hlength := request.length_content_le
  have hbody := Frame.length_escapedBody request.content
  have hfour : 4 ≤ (Frame.escapedBody request.content).length := by
    rw [content, List.length_cons] at hbody
    rw [content]
    omega
  apply ReportReader.load_of_decodeInto
  rw [Frame.result_decodeInto_wireFrame hfour, if_pos]
  rw [ReportReader.length_buffer_performAll, ReportReader.bufferSize]
  omega

/-! ## Runs of requests -/

namespace RequestWriter

/-- The writer after requests in order. -/
def writeAll (w : RequestWriter) (requests : List Request) : RequestWriter :=
  requests.foldl (fun writer request => (writer.write request).2) w

/-- The scratch buffer never changes its length. -/
theorem length_scratch_writeAll {w : RequestWriter} (h : w.scratch.length = scratchSize)
    (requests : List Request) : (w.writeAll requests).scratch.length = scratchSize := by
  induction requests generalizing w with
  | nil => exact h
  | cons request rest ih => exact ih (write_of_scratch h request).2.1

/-- Whatever was requested before, a request is answered with the frame of its identifier and
payload, which the writer names from then on and which no service omits. If it has a payload,
every reader takes the frame, and holds the request again. -/
theorem write_answers_wireFrame (earlier : List Request) (request : Request) :
    let answer := (empty.writeAll earlier).write request
    let content := request.identifier.toByte :: request.payload
    let wire := Frame.wireFrame content
    answer.1 = .ok wire ∧ answer.2.identifier = request.identifier ∧ wire.length ≤ 23 ∧
    (∀ {η : Type} (s : Service η),
      (s.write wire).tally.volume .omitted = s.tally.volume .omitted) ∧
    (request.payload ≠ [] → ∀ loads : List ReportReader.Load,
      let loaded := (ReportReader.empty.performAll loads).load wire
      loaded.1 = .ok () ∧ loaded.2.frame = Frame.unframed content ∧
      Request.ofPayload? loaded.2.identifier (Frame.payload loaded.2.frame) = some request) := by
  intro answer content wire
  have hscratch : (empty.writeAll earlier).scratch.length = scratchSize :=
    length_scratch_writeAll (Bytes.length_zeros _) earlier
  obtain ⟨hanswer, _, hfront⟩ := write_of_scratch hscratch request
  have hlength : wire.length ≤ 23 := by
    change (Frame.enclosed (Frame.escapedBody request.content)).length ≤ 23
    rw [Frame.length_enclosed]
    exact request.length_escapedBody_le
  refine ⟨hanswer, identifier_of_take hfront, hlength, fun s => ?_, fun hpayload loads => ?_⟩
  · exact s.volume_omitted_write (by rw [MessageBuffer.capacity]; omega)
  · intro loaded
    obtain ⟨hok, hframe⟩ := request.load_wireFrame hpayload loads
    change loaded.2.frame = Frame.unframed content at hframe
    have hidentifier : loaded.2.identifier = request.identifier := by
      rw [ReportReader.identifier, hframe]
      exact request.ofByte_toByte_identifier
    refine ⟨hok, hframe, ?_⟩
    rw [hidentifier, hframe, Frame.payload_unframed, Request.ofPayload?_payload]

/-- A detector word of nothing but markers is escaped byte by byte, and comes back. -/
theorem write_answers_wireFrame_markers :
    let earlier : List Request := [.staticStatus, .configure 0xFF]
    let request : Request := .detect 0x7D03027D03027D03
    let wire : Bytes := [0x02, 0x11, 0x7D, 0x23, 0x7D, 0x5D, 0x7D, 0x22, 0x7D, 0x23, 0x7D, 0x5D,
      0x7D, 0x22, 0x7D, 0x23, 0x7D, 0x5D, 0x8C, 0xD9, 0x03]
    let loaded := (ReportReader.empty.load wire).2
    request.payload ≠ [] ∧ ((empty.writeAll earlier).write request).1 = .ok wire ∧
    Request.ofPayload? loaded.identifier (Frame.payload loaded.frame) = some request := by
  intro earlier request wire loaded
  have hpayload : request.payload ≠ [] := by decide
  have hwire : Frame.wireFrame (request.identifier.toByte :: request.payload) = wire := by
    decide +kernel
  have hanswers := write_answers_wireFrame earlier request
  dsimp only at hanswers
  rw [hwire] at hanswers
  obtain ⟨hanswer, _, _, _, hread⟩ := hanswers
  exact ⟨hpayload, hanswer, (hread hpayload []).2.2⟩

end RequestWriter

end CabinetBus
