-- SUMMARY: What a reader holds after any loads, and what its reports are then.
import Mathlib.Data.List.Induction
import CabinetBus.Proofs.Payloads

/-!
# Loading frames

A reader is loaded with raw frames and with hexadecimal texts, in any order, and keeps one
buffer for all of them. Only its length takes part in unframing, so what is loaded in the end
is the frame of the last input that spelled bytes, or nothing if that was refused. A text that
spells no bytes is refused before anything is unloaded: the frame loaded before it stays.
-/

namespace CabinetBus.ReportReader

/-! ## Runs of loads -/

/-- An input that a reader is loaded with. -/
inductive Load where
  | frame (wire : Bytes)
  | hex (text : String)
  deriving DecidableEq, Repr

/-- The raw frame that an input spells. -/
def Load.wire? : Load → Option Bytes
  | .frame wire => some wire
  | .hex text => Bytes.ofHex? text

def perform (r : ReportReader) : Load → Except LinkError Unit × ReportReader
  | .frame wire => r.load wire
  | .hex text => r.loadHex text

/-- The reader after loads in order, whatever comes of each. -/
def performAll (r : ReportReader) (loads : List Load) : ReportReader :=
  loads.foldl (fun reader load => (reader.perform load).2) r

theorem perform_of_wire (r : ReportReader) {load : Load} {wire : Bytes}
    (h : load.wire? = some wire) : r.perform load = r.load wire := by
  cases load with
  | frame other =>
      cases h
      rfl
  | hex text =>
      rw [Load.wire?] at h
      rw [perform, loadHex, h]

/-- An input that spells no bytes leaves the reader as it is. -/
theorem perform_of_no_wire (r : ReportReader) {load : Load} (h : load.wire? = none) :
    (r.perform load).2 = r := by
  cases load with
  | frame other => cases h
  | hex text =>
      rw [Load.wire?] at h
      rw [perform, loadHex, h]

theorem performAll_concat (r : ReportReader) (loads : List Load) (last : Load) :
    r.performAll (loads ++ [last]) = ((r.performAll loads).perform last).2 := by
  rw [performAll, List.foldl_append]
  rfl

theorem length_buffer_perform (r : ReportReader) (load : Load) :
    (r.perform load).2.buffer.length = r.buffer.length := by
  cases hwire : load.wire? with
  | none => rw [perform_of_no_wire r hwire]
  | some wire => rw [perform_of_wire r hwire, length_buffer_load]

/-- The room for frames never changes. -/
theorem length_buffer_performAll (loads : List Load) :
    (empty.performAll loads).buffer.length = bufferSize := by
  induction loads using List.reverseRecOn with
  | nil => exact Bytes.length_zeros _
  | append_singleton loads last ih => rw [performAll_concat, length_buffer_perform, ih]

/-! ## What is loaded -/

/-- What is loaded behind a raw frame: its bytes unframed, or none if it is refused. -/
def opened (wire : Bytes) : Bytes :=
  match (Frame.decodeInto wire (Bytes.zeros bufferSize)).result with
  | .ok decoded => decoded
  | .error _ => []

/-- The last raw frame that loads spelled. -/
def lastWire? (loads : List Load) : Option Bytes := (loads.filterMap Load.wire?).getLast?

/-- What is unframed does not depend on what the buffer held. -/
theorem result_decodeInto_buffer (loads : List Load) (wire : Bytes) :
    (Frame.decodeInto wire (empty.performAll loads).buffer).result =
      (Frame.decodeInto wire (Bytes.zeros bufferSize)).result :=
  Frame.result_decodeInto_congr (by rw [length_buffer_performAll, Bytes.length_zeros])

theorem frame_load (loads : List Load) (wire : Bytes) :
    ((empty.performAll loads).load wire).2.frame = opened wire := by
  have hsame := result_decodeInto_buffer loads wire
  rw [opened, ← hsame]
  cases hresult : (Frame.decodeInto wire (empty.performAll loads).buffer).result with
  | ok decoded => exact (load_of_decodeInto hresult).2
  | error e =>
      rw [load, hresult]
      rfl

/-- After any loads, the last raw frame that was spelled is what counts. -/
theorem frame_performAll (loads : List Load) :
    (empty.performAll loads).frame = (lastWire? loads).elim [] opened := by
  induction loads using List.reverseRecOn with
  | nil => rfl
  | append_singleton loads last ih =>
      rw [performAll_concat, lastWire?, List.filterMap_append]
      cases hwire : last.wire? with
      | none => simpa [perform_of_no_wire _ hwire, hwire, lastWire?] using ih
      | some wire => simp [perform_of_wire _ hwire, hwire, frame_load]

/-! ## Reports of a loaded frame -/

/-- The failure of a report where there is not even a first byte. -/
def nothingToRead : LinkError := .cursor (.exhausted 1 payloadOffset 0)

/-- No byte of any frame can be read. -/
structure NothingLoaded (r : ReportReader) : Prop where
  frame : r.frame = []
  dataLength : r.dataLength = 0
  identifier : r.identifier = .unknown 0
  staticStatus : r.staticStatus = .error nothingToRead
  dynamicStatus : r.dynamicStatus = .error nothingToRead
  sdlcDiagnostics : r.sdlcDiagnostics = .error nothingToRead
  biuDiagnostics : r.biuDiagnostics = .error nothingToRead
  siuDiagnostics : r.siuDiagnostics = .error nothingToRead
  cmuFrame : r.cmuFrame = .error nothingToRead
  acknowledge : r.acknowledge = .error nothingToRead
  dateTime : r.dateTime = .error nothingToRead

/-- Without a frame, a report fails with its first byte. -/
theorem report_of_frame_eq_nil {α : Type} {fields : Cursor.Fields α} {widths : List Nat}
    {value : Bytes → α} (h : Cursor.Takes fields (1 :: widths) value) {r : ReportReader}
    (hframe : r.frame = []) : r.report fields = .error nothingToRead := by
  have hpayload : r.payload = ⟨[], payloadOffset, 0, 0, none⟩ := by
    simp [payload, hframe, Cursor.reader]
  rw [report, h.record_eq (c := r.payload) (by rw [hpayload]), hpayload]
  rfl

theorem nothingLoaded_iff {r : ReportReader} : r.NothingLoaded ↔ r.frame = [] := by
  refine ⟨NothingLoaded.frame, fun hframe => ?_⟩
  have hlength : r.dataLength = 0 := by rw [dataLength, hframe]; rfl
  have hcmu : r.cmuFrame = r.report (CmuFrame.fieldsOfWidth 2) := by
    have hpayload : r.payload = ⟨[], payloadOffset, 0, 0, none⟩ := by
      simp [payload, hframe, Cursor.reader]
    rw [cmuFrame, report, report, Cursor.record, Cursor.record, CmuFrame.run_fields,
      Cursor.run_byte_fst (by rw [hpayload]), hpayload]
    rfl
  constructor
  case frame => exact hframe
  case dataLength => exact hlength
  case identifier => rw [identifier, hframe]; rfl
  case staticStatus => exact report_of_frame_eq_nil (StaticStatus.takes_fields _) hframe
  case dynamicStatus => exact report_of_frame_eq_nil (DynamicStatus.takes_fields _) hframe
  case sdlcDiagnostics => exact report_of_frame_eq_nil SdlcDiagnostics.takes_fields hframe
  case biuDiagnostics => exact report_of_frame_eq_nil BiuDiagnostics.takes_fields hframe
  case siuDiagnostics => exact report_of_frame_eq_nil SiuDiagnostics.takes_fields hframe
  case cmuFrame =>
    rw [hcmu]
    exact report_of_frame_eq_nil (CmuFrame.takes_fieldsOfWidth 2) hframe
  case acknowledge => exact report_of_frame_eq_nil Cursor.Takes.byte hframe
  case dateTime =>
    rw [dateTime_eq, report_of_frame_eq_nil takes_dateTimeFields hframe]
    rfl

/-! ## Refused loads -/

/-- A raw frame that is refused unloads the frame before it. -/
theorem frame_of_load_error {r : ReportReader} {wire : Bytes} {e : LinkError}
    (h : (r.load wire).1 = .error e) : (r.load wire).2.frame = [] := by
  rw [load] at h ⊢
  split at h
  · cases h
  · rfl

/-- A load that fails leaves nothing loaded, except where its input spells no bytes and a frame
was loaded before it. Then the reader is as it was, and that frame is still read. -/
theorem failed_load_unloads_iff {loads : List Load} {last : Load} {e : LinkError}
    (h : ((empty.performAll loads).perform last).1 = .error e) :
    let before := empty.performAll loads
    let after := (before.perform last).2
    (after.NothingLoaded ↔ last.wire? ≠ none ∨ (lastWire? loads).elim [] opened = []) ∧
    (last.wire? = none → after = before) := by
  intro before after
  rw [nothingLoaded_iff, ← frame_performAll]
  cases hwire : last.wire? with
  | none =>
      have hafter : after = before := perform_of_no_wire before hwire
      refine ⟨⟨fun hframe => .inr ?_, fun hcases => ?_⟩, fun _ => hafter⟩
      · rw [← hframe, hafter]
      · rcases hcases with hsome | hframe
        · exact absurd rfl hsome
        · rw [hafter, hframe]
  | some wire =>
      have hload : before.perform last = before.load wire := perform_of_wire before hwire
      have hframe : after.frame = [] := by
        rw [hload] at h
        simp only [after, hload]
        exact frame_of_load_error h
      refine ⟨⟨fun _ => .inl (Option.some_ne_none wire), fun _ => hframe⟩, fun hnone => ?_⟩
      cases hnone

/-- An acknowledge that is loaded before the last input. -/
def acknowledged : List Load := [.hex "024f12328e03"]

/-- A wrong checksum is found only when the whole frame stands in the buffer. -/
theorem failed_load_unloads_iff_wrong_checksum :
    let before := empty.performAll acknowledged
    let last : Load := .hex "0213014B2F03"
    before.acknowledge = .ok 0x12 ∧
    (before.perform last).1 = .error (.frame (.checksum 0x5B0E 0x4B2F)) ∧
    (before.perform last).2.NothingLoaded := by
  intro before last
  have hfail : (before.perform last).1 = .error (.frame (.checksum 0x5B0E 0x4B2F)) := by
    decide +kernel
  refine ⟨by decide +kernel, hfail, ?_⟩
  exact (failed_load_unloads_iff hfail).1.mpr (.inl (by decide +kernel))

/-- A text that is no hexadecimal is refused, and the frame before it is still loaded and read. -/
theorem frame_survives_unreadable_text :
    let before := empty.performAll acknowledged
    let last : Load := .hex "02zz"
    (before.perform last).1 = .error (.invalidHex "02zz") ∧
    (before.perform last).2.frame = [0x02, 0x4F, 0x12, 0x32, 0x8E, 0x03] ∧
    (before.perform last).2.identifier = .acknowledge ∧
    (before.perform last).2.acknowledge = .ok 0x12 ∧
    ¬ (before.perform last).2.NothingLoaded := by
  intro before last
  have hframe : (before.perform last).2.frame = [0x02, 0x4F, 0x12, 0x32, 0x8E, 0x03] := by
    decide +kernel
  refine ⟨by decide +kernel, hframe, by decide +kernel, by decide +kernel, fun hnothing => ?_⟩
  rw [hnothing.frame] at hframe
  cases hframe

end CabinetBus.ReportReader
