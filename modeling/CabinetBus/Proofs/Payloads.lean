-- SUMMARY: Each report as a function of the payload alone, and what a short payload lacks.
import CabinetBus.Proofs.Reading
import CabinetBus.Proofs.Unframing

/-!
# Reports and payloads

A report is a reading of fields from the bytes between identifier and checksum. How many bytes
it asks for, what it makes of them, and which field a shorter payload fails with, are told here
by the payload alone: nothing that a reader holds besides takes part in it.
-/

namespace CabinetBus

/-! ## Payloads -/

/-- The bytes of an unframed frame between identifier and checksum. -/
def Frame.payload (decoded : Bytes) : Bytes :=
  decoded.slice ReportReader.payloadOffset (ReportReader.payloadOffset + dataLength decoded)

theorem Frame.length_payload (decoded : Bytes) :
    (payload decoded).length = dataLength decoded := by
  rw [payload, Bytes.length_slice, dataLength, ReportReader.payloadOffset, overhead]
  omega

/-- A frame with all its parts has its payload before its last three bytes. -/
theorem Frame.payload_eq_slice {decoded : Bytes} (h : overhead ≤ decoded.length) :
    payload decoded = decoded.slice 2 (decoded.length - 3) := by
  rw [payload, dataLength, ReportReader.payloadOffset]
  rw [overhead] at h ⊢
  congr 1
  omega

namespace Cursor

/-- A shortage is that of the first field that goes beyond the limit. -/
theorem exists_of_shortage? {limit offset : Nat} {widths : List Nat} {e : CursorError}
    (hoffset : offset ≤ limit) (h : shortage? limit offset widths = some e) :
    ∃ front width back, widths = front ++ width :: back ∧ offset + front.sum ≤ limit ∧
      limit < offset + front.sum + width ∧ e = .exhausted width (offset + front.sum) limit := by
  induction widths generalizing offset with
  | nil => cases h
  | cons width rest ih =>
      rw [shortage?] at h
      split at h
      · rename_i hlt
        cases h
        exact ⟨[], width, rest, rfl, hoffset, hlt, rfl⟩
      · rename_i hle
        obtain ⟨front, short, back, rfl, hfront, hlt, rfl⟩ := ih (Nat.le_of_not_lt hle) h
        refine ⟨width :: front, short, back, rfl, ?_⟩
        rw [List.sum_cons, ← Nat.add_assoc]
        exact ⟨hfront, hlt, rfl⟩

end Cursor

namespace ReportReader

/-- A report is read from the payload of the loaded frame. Fields that do not fit into it are a
shortage, whatever lies behind it. -/
theorem report_eq {α : Type} {fields : Cursor.Fields α} {widths : List Nat} {value : Bytes → α}
    (h : Cursor.Takes fields widths value) {r : ReportReader} (hlen : 2 ≤ r.frame.length) :
    r.report fields =
      match Cursor.shortage? (payloadOffset + r.dataLength) payloadOffset widths with
      | some e => .error (.cursor e)
      | none => .ok (value ((Frame.payload r.frame).take widths.sum)) := by
  have hlimit : min (payloadOffset + r.dataLength) r.frame.length =
      payloadOffset + r.dataLength := by
    rw [dataLength, Frame.dataLength, payloadOffset, Frame.overhead]
    omega
  rw [report, h.record_eq (c := r.payload) rfl]
  simp only [payload, Cursor.reader, hlimit]
  cases hshort : Cursor.shortage? (payloadOffset + r.dataLength) payloadOffset widths with
  | some e => rfl
  | none =>
      have hfits := (Cursor.shortage?_eq_none_iff (Nat.le_add_right _ _)).mp hshort
      obtain ⟨rest, hrest⟩ := Nat.exists_eq_add_of_le (Nat.add_le_add_iff_left.mp hfits)
      have htake : (Frame.payload r.frame).take widths.sum =
          r.frame.slice payloadOffset (payloadOffset + widths.sum) := by
        have hdata : Frame.dataLength r.frame = widths.sum + rest := hrest
        rw [Frame.payload, hdata, Bytes.take_slice]
      rw [htake]

/-! ## Answers by the payload -/

variable {α : Type}

/-- What a report of fields of these widths answers on a payload: `answer` where there are
`least` bytes, and else the failure of the first field that the payload does not hold. -/
structure ReadAs (payload : Bytes) (least : Nat) (widths : List Nat)
    (answer outcome : Except LinkError α) : Prop where
  eq_of_le : least ≤ payload.length → outcome = answer
  exhausted_of_lt : payload.length < least →
    ∃ front width back, widths = front ++ width :: back ∧ front.sum ≤ payload.length ∧
      payload.length < front.sum + width ∧
      outcome = .error (.cursor (.exhausted width (payloadOffset + front.sum)
        (payloadOffset + payload.length)))

/-- A reading that takes these fields answers so, if `least` bytes are as many as they need. -/
theorem readAs_report {fields : Cursor.Fields α} {widths : List Nat} {value : Bytes → α}
    (h : Cursor.Takes fields widths value) {r : ReportReader} (hlen : 2 ≤ r.frame.length)
    {least : Nat} {report : α}
    (hleast : widths.sum ≤ (Frame.payload r.frame).length ↔
      least ≤ (Frame.payload r.frame).length)
    (hvalue : value ((Frame.payload r.frame).take widths.sum) = report) :
    ReadAs (Frame.payload r.frame) least widths (.ok report) (r.report fields) := by
  have hdata : r.dataLength = (Frame.payload r.frame).length := (Frame.length_payload _).symm
  rw [report_eq h hlen, hdata]
  constructor
  · intro hle
    have hnone := (Cursor.shortage?_eq_none_iff (Nat.le_add_right payloadOffset _)).mpr
      (Nat.add_le_add_left (hleast.mpr hle) payloadOffset)
    rw [hnone, hvalue]
  · intro hlt
    have hsome : Cursor.shortage? (payloadOffset + (Frame.payload r.frame).length) payloadOffset
        widths ≠ none := by
      rw [Ne, Cursor.shortage?_eq_none_iff (Nat.le_add_right _ _), Nat.add_le_add_iff_left, hleast]
      exact Nat.not_le_of_lt hlt
    obtain ⟨e, he⟩ := Option.ne_none_iff_exists'.mp hsome
    obtain ⟨front, width, back, hwidths, hfront, hwidth, rfl⟩ :=
      Cursor.exists_of_shortage? (Nat.le_add_right _ _) he
    rw [he]
    exact ⟨front, width, back, hwidths, by omega, by omega, rfl⟩

end ReportReader

/-! ## Static status -/

namespace StaticStatus

/-- The report that a payload holds; bytes behind the mode only tell whether there is the
mapped-mode byte. -/
def ofPayload (payload : Bytes) : StaticStatus where
  biu := ⟨payload.getD 0 0⟩
  majorVersion := payload.getD 1 0
  minorVersion := payload.getD 2 0
  serial := UInt64.ofNat (Bytes.littleValue (payload.slice 3 11))
  protocolVersion := payload.getD 11 0
  mode := ⟨payload.getD 12 0⟩
  isModeMapped := payload.length == modeMappedLength

/-- The widths of the fields. -/
def widths : List Nat := [1, 1, 1, 8, 1, 1]

theorem takes_fields (payloadLength : Nat) :
    Cursor.Takes (fields payloadLength) widths fun bytes =>
      { ofPayload bytes with isModeMapped := payloadLength == modeMappedLength } := by
  have h : Cursor.Takes (fields payloadLength) widths _ :=
    .bind .byte fun _ => .bind .byte fun _ => .bind .byte fun _ =>
      .bind (.word .little 8) fun _ => .bind .byte fun _ => .bind .byte fun _ => .pure _
  apply h.congr
  intro bytes _
  simp [ofPayload, List.head?_eq_getElem?, ByteOrder.value, Bytes.slice, List.take_drop]

/-- Only the length of a payload goes beyond the fields. -/
theorem ofPayload_take (payload : Bytes) :
    { ofPayload (payload.take widths.sum) with
      isModeMapped := payload.length == modeMappedLength } = ofPayload payload := by
  simp [ofPayload, widths, Bytes.slice_take]

end StaticStatus

/-- A static status is read from the payload alone, and fails with the first field it lacks. -/
theorem ReportReader.staticStatus_eq {r : ReportReader} (hlen : 2 ≤ r.frame.length) :
    r.staticStatus =
      match Cursor.shortage? (payloadOffset + r.dataLength) payloadOffset StaticStatus.widths with
      | some e => .error (.cursor e)
      | none => .ok (.ofPayload (Frame.payload r.frame)) := by
  have hdata : r.dataLength = (Frame.payload r.frame).length := (Frame.length_payload _).symm
  rw [staticStatus, report_eq (StaticStatus.takes_fields _) hlen]
  simp only [hdata, StaticStatus.ofPayload_take]

/-! ## Dynamic status -/

namespace DynamicStatus

/-- The report that a payload holds; its length tells which trailing counters there are. -/
def ofPayload (payload : Bytes) : DynamicStatus where
  sinceLastComms := (payload.getD 0 0).toUInt32 * 10
  requestedCount := payload.getD 1 0
  uptimeDays := payload.getD 2 0
  uptimeMinutes := (payload.getD 3 0).toUInt32 * 6
  sdlcFailCount := if payload.length = 5 ∨ payload.length = 6 then some (payload.getD 4 0) else none
  uartFailCount := if payload.length = 6 then some (payload.getD 5 0) else none
  isFailSafeMapped := payload.length == 5

/-- The widths of the trailing counters. -/
def trailing : Nat → List Nat
  | 5 => [1]
  | 6 => [1, 1]
  | _ => []

/-- The widths of the fields in a payload of a given length. -/
def widths (payloadLength : Nat) : List Nat := 1 :: 1 :: 1 :: 1 :: trailing payloadLength

/-- A report with the trailing counters that a payload of a given length has. -/
def withTrailing (status : DynamicStatus) (payloadLength : Nat) (counters : Bytes) :
    DynamicStatus :=
  { status with
    sdlcFailCount :=
      if payloadLength = 5 ∨ payloadLength = 6 then some (counters.getD 0 0) else none
    uartFailCount := if payloadLength = 6 then some (counters.getD 1 0) else none
    isFailSafeMapped := payloadLength == 5 }

theorem takes_trailing (comms requested days sixMinutes : UInt8) (payloadLength : Nat) :
    let status : DynamicStatus :=
      { sinceLastComms := comms.toUInt32 * 10, requestedCount := requested, uptimeDays := days,
        uptimeMinutes := sixMinutes.toUInt32 * 6, sdlcFailCount := none, uartFailCount := none,
        isFailSafeMapped := false }
    Cursor.Takes
      (match payloadLength with
        | 5 => do
            let sdlc ← Cursor.byte
            return { status with sdlcFailCount := some sdlc, isFailSafeMapped := true }
        | 6 => do
            let sdlc ← Cursor.byte
            let uart ← Cursor.byte
            return { status with sdlcFailCount := some sdlc, uartFailCount := some uart }
        | _ => return status)
      (trailing payloadLength) (withTrailing status payloadLength) := by
  intro status
  unfold trailing
  split
  · have h : Cursor.Takes _ [1] _ := .bind .byte fun sdlc =>
      .pure { status with sdlcFailCount := some sdlc, isFailSafeMapped := true }
    apply h.congr
    intro bytes _
    simp [withTrailing, List.head?_eq_getElem?, status]
  · have h : Cursor.Takes _ [1, 1] _ := .bind .byte fun sdlc => .bind .byte fun uart =>
      .pure { status with sdlcFailCount := some sdlc, uartFailCount := some uart }
    apply h.congr
    intro bytes _
    simp [withTrailing, List.head?_eq_getElem?, status]
  · rename_i hfive hsix
    apply (Cursor.Takes.pure status).congr
    intro bytes _
    rw [withTrailing, if_neg (not_or.mpr ⟨hfive, hsix⟩), if_neg hsix,
      beq_eq_false_iff_ne.mpr hfive]

theorem takes_fields (payloadLength : Nat) :
    Cursor.Takes (fields payloadLength) (widths payloadLength) fun bytes =>
      withTrailing (ofPayload bytes) payloadLength (bytes.drop 4) := by
  have h : Cursor.Takes (fields payloadLength) (widths payloadLength) _ :=
    .bind .byte fun comms => .bind .byte fun requested => .bind .byte fun days =>
      .bind .byte fun sixMinutes => takes_trailing comms requested days sixMinutes payloadLength
  apply h.congr
  intro bytes _
  simp [withTrailing, ofPayload, List.head?_eq_getElem?]

/-- Of a payload, the fields are all that counts besides its length. -/
theorem ofPayload_take (payload : Bytes) :
    let fields := payload.take (widths payload.length).sum
    withTrailing (ofPayload fields) payload.length (fields.drop 4) = ofPayload payload := by
  unfold widths trailing
  split <;> simp_all [withTrailing, ofPayload]

end DynamicStatus

/-! ## Counters -/

/-- The report that a payload of six link error counters holds. -/
def SdlcDiagnostics.ofPayload (payload : Bytes) : SdlcDiagnostics where
  shortFrameError := expandCount (payload.getD 0 0)
  controlError := expandCount (payload.getD 1 0)
  crcError := expandCount (payload.getD 2 0)
  idleError := expandCount (payload.getD 3 0)
  framingError := expandCount (payload.getD 4 0)
  longFrameError := expandCount (payload.getD 5 0)

theorem SdlcDiagnostics.takes_fields :
    Cursor.Takes fields (List.replicate 6 1) ofPayload := by
  have h : Cursor.Takes fields (List.replicate 6 1) _ :=
    .bind .byte fun _ => .bind .byte fun _ => .bind .byte fun _ => .bind .byte fun _ =>
      .bind .byte fun _ => .bind .byte fun _ => .pure _
  apply h.congr
  intro bytes _
  simp [ofPayload, List.head?_eq_getElem?]

theorem Bytes.take_drop_eq_slice (bytes : Bytes) (start count : Nat) :
    (bytes.drop start).take count = bytes.slice start (start + count) := by
  rw [slice, List.take_drop]

/-- A run of bytes, each of them or zero where there is none. -/
def Bytes.run (bytes : Bytes) (start count : Nat) : List UInt8 :=
  (List.range count).map fun offset => bytes.getD (start + offset) 0

theorem Bytes.run_take {bytes : Bytes} {start count total : Nat} (h : start + count ≤ total) :
    run (bytes.take total) start count = run bytes start count := by
  apply List.map_congr_left
  intro offset hoffset
  have hlt : start + offset < total := by
    have := List.mem_range.mp hoffset
    omega
  simp [List.getElem?_take_of_lt hlt]

theorem Bytes.run_drop (bytes : Bytes) (skipped start count : Nat) :
    run (bytes.drop skipped) start count = run bytes (skipped + start) count := by
  simp [run, Nat.add_assoc]

/-- Single bytes in a row. -/
theorem Cursor.Takes.byteList (count : Nat) :
    Takes (Cursor.byteList count) (List.replicate count 1) fun bytes => bytes.run 0 count := by
  induction count with
  | zero => exact .pure []
  | succ count ih =>
      have h : Takes (Cursor.byteList (count + 1)) (1 :: (List.replicate count 1 ++ [])) _ :=
        .bind .byte fun b => .bind ih fun rest => .pure (b :: rest)
      rw [List.append_nil] at h
      apply h.congr
      intro bytes _
      rw [List.sum_singleton, List.sum_replicate_nat, Nat.mul_one, Bytes.run_take (by omega),
        Bytes.run_drop]
      simp [Bytes.run, List.range_succ_eq_map, List.head?_eq_getElem?, Nat.add_comm 1]

/-- The report that a payload of message counters holds, two of them for every unit. -/
def BiuDiagnostics.ofPayload (payload : Bytes) : BiuDiagnostics where
  mmuLoadSwitchCounter := payload.getD 0 0
  dateTimeBroadcastCounter := payload.getD 1 0
  callDataRequestCounter := payload.run 2 4
  resetDiagnosticCounter := payload.run 6 4
  serviceRequestCounter := payload.getD 10 0
  reservedCounter := payload.getD 11 0

theorem BiuDiagnostics.takes_fields :
    Cursor.Takes fields (List.replicate 12 1) ofPayload := by
  have h : Cursor.Takes fields (List.replicate 12 1) _ :=
    .bind .byte fun _ => .bind .byte fun _ => .bind (.byteList 4) fun _ =>
      .bind (.byteList 4) fun _ => .bind .byte fun _ => .bind .byte fun _ => .pure _
  apply h.congr
  intro bytes _
  simp [ofPayload, List.head?_eq_getElem?, Bytes.run_take, Bytes.run_drop]

/-- The report that a payload of nine message counters holds. -/
def SiuDiagnostics.ofPayload (payload : Bytes) : SiuDiagnostics where
  statusCounter := payload.getD 0 0
  millisecondCounter := payload.getD 1 0
  inputConfigCounter := payload.getD 2 0
  pollRawCounter := payload.getD 3 0
  pollFilteredCounter := payload.getD 4 0
  transitionBufferCounter := payload.getD 5 0
  moduleIdCounter := payload.getD 6 0
  timeDateCounter := payload.getD 7 0
  moduleDescriptionCounter := payload.getD 8 0

theorem SiuDiagnostics.takes_fields :
    Cursor.Takes fields (List.replicate 9 1) ofPayload := by
  have h : Cursor.Takes fields (List.replicate 9 1) _ :=
    .bind .byte fun _ => .bind .byte fun _ => .bind .byte fun _ => .bind .byte fun _ =>
      .bind .byte fun _ => .bind .byte fun _ => .bind .byte fun _ => .bind .byte fun _ =>
        .bind .byte fun _ => .pure _
  apply h.congr
  intro bytes _
  simp [ofPayload, List.head?_eq_getElem?]

/-! ## Signal state -/

namespace CmuFrame

/-- The report that a payload with channel fields of a given width holds. -/
def ofChannels (width : Nat) (payload : Bytes) : CmuFrame :=
  let channel (start : Nat) : UInt32 :=
    UInt32.ofNat (ByteOrder.big.value (payload.slice start (start + width)))
  { mode := ⟨payload.getD 0 0⟩, green := channel 1, yellow := channel (1 + width),
    red := channel (1 + width + width) }

/-- The widths of the fields, if the channel fields have a given width. -/
def widths (width : Nat) : List Nat := [1, width, width, width]

/-- The reading of channel fields of a given width, behind the mode byte. -/
def channelFields (width : Nat) (bits : UInt8) : Cursor.Fields CmuFrame := do
  let green ← Cursor.readWord .big width
  let yellow ← Cursor.readWord .big width
  let red ← Cursor.readWord .big width
  return { mode := ⟨bits⟩, green := UInt32.ofNat green, yellow := UInt32.ofNat yellow,
           red := UInt32.ofNat red }

/-- The reading with channel fields of a given width, whatever the mode byte says. -/
def fieldsOfWidth (width : Nat) : Cursor.Fields CmuFrame := Cursor.byte >>= channelFields width

/-- The width that a reading of a cursor uses is that of the byte it reads first. -/
theorem run_fields (c : Cursor) :
    fields.run c = (fieldsOfWidth (channelWidth ⟨(Cursor.byte.run c).1⟩)).run c := by
  have hfields : fields = Cursor.byte >>= fun bits => channelFields (channelWidth ⟨bits⟩) bits :=
    rfl
  rw [hfields, fieldsOfWidth, StateT.run_bind, StateT.run_bind]
  rfl

theorem takes_fieldsOfWidth (width : Nat) :
    Cursor.Takes (fieldsOfWidth width) (widths width) (ofChannels width) := by
  have h : Cursor.Takes (fieldsOfWidth width) (widths width) _ :=
    .bind .byte fun _ => .bind (.word .big width) fun _ => .bind (.word .big width) fun _ =>
      .bind (.word .big width) fun _ => .pure _
  apply h.congr
  intro bytes _
  simp only [List.sum_singleton, List.drop_drop, Bytes.take_drop_eq_slice, ofChannels]
  simp [List.head?_eq_getElem?]

end CmuFrame

/-- The next byte, or zero where the limit comes first. -/
theorem Cursor.run_byte_fst {c : Cursor} (hc : c.error = none) :
    (byte.run c).1 = (c.buffer.slice c.readPos c.limit).getD 0 0 := by
  by_cases hlt : c.limit < c.readPos + 1
  · have hnone : c.buffer.slice c.readPos c.limit = [] :=
      List.drop_eq_nil_of_le (by rw [List.length_take]; omega)
    have hrun : (byte.run c).1 = UInt8.ofNat (readWord .big 1 c).1 := rfl
    rw [hnone, hrun, readWord, take, hc]
    simp only [if_pos hlt]
    rfl
  · obtain ⟨rest, hrest⟩ := Nat.exists_eq_add_of_le (Nat.le_of_not_lt hlt)
    have hfits : shortage? c.limit c.readPos [1] = none := if_neg hlt
    have hhead : c.buffer.slice c.readPos (c.readPos + 1) =
        (c.buffer.slice c.readPos c.limit).take 1 := by
      rw [hrest, Nat.add_assoc, Bytes.take_slice]
    rw [Takes.byte.run_eq c hc hfits, List.sum_singleton, hhead]
    simp [List.head?_eq_getElem?]

namespace ReportReader

/-- The date and time that the first six bytes of a payload spell. -/
def dateTimeOf (payload : Bytes) : DateTime where
  year := 2000 + (payload.getD 0 0).toNat
  month := (payload.getD 1 0).toNat
  day := (payload.getD 2 0).toNat
  hour := (payload.getD 3 0).toNat
  minute := (payload.getD 4 0).toNat
  second := (payload.getD 5 0).toNat

theorem takes_dateTimeFields :
    Cursor.Takes dateTimeFields (List.replicate 6 1) dateTimeOf := by
  have h : Cursor.Takes dateTimeFields (List.replicate 6 1) _ :=
    .bind .byte fun _ => .bind .byte fun _ => .bind .byte fun _ => .bind .byte fun _ =>
      .bind .byte fun _ => .bind .byte fun _ => .pure _
  apply h.congr
  intro bytes _
  simp [dateTimeOf, List.head?_eq_getElem?]

/-- What becomes of six fields that were read as a date and time. -/
def dated (t : DateTime) : Except LinkError DateTime :=
  if t.IsValid then .ok t
  else .error (.invalidDateTime ⟨t.year, t.month, t.day, t.hour, t.minute, t.second⟩)

theorem dateTime_eq (r : ReportReader) : r.dateTime = r.report dateTimeFields >>= dated := by
  unfold dateTime
  cases r.report dateTimeFields <;> rfl

/-! ## All reports -/

theorem readAs_dateTime {r : ReportReader} (hlen : 2 ≤ r.frame.length) :
    ReadAs (Frame.payload r.frame) 6 (List.replicate 6 1)
      (dated (dateTimeOf (Frame.payload r.frame))) r.dateTime := by
  have h : ReadAs (Frame.payload r.frame) 6 (List.replicate 6 1)
      (.ok (dateTimeOf (Frame.payload r.frame))) (r.report dateTimeFields) :=
    readAs_report takes_dateTimeFields hlen Iff.rfl (by simp [dateTimeOf])
  rw [dateTime_eq]
  constructor
  · intro hle
    rw [h.eq_of_le hle]
    rfl
  · intro hlt
    obtain ⟨front, width, back, hwidths, hfront, hwidth, houtcome⟩ := h.exhausted_of_lt hlt
    exact ⟨front, width, back, hwidths, hfront, hwidth, by rw [houtcome]; rfl⟩

end ReportReader

end CabinetBus
