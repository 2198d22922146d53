-- SUMMARY: The class of a frame by its bytes alone, and what a watch has after any frames.
import Mathlib.Data.List.Induction
import CabinetBus.Poll.StatusWatch
import CabinetBus.Proofs.Payloads

/-!
# Status watching

A watch reads every frame through one buffer, and what an earlier frame left there takes no
part in reading the next: unframing only asks for the room, and reports are read from the
frame that was loaded. So a frame has the same class in every run. After a run, the counts
and the snapshot are those of the classes.
-/

namespace CabinetBus

/-! ## Classes of frames -/

namespace FrameClass

/-- The class of an unframed frame, by its identifier and payload. -/
def ofDecoded (decoded : Bytes) : FrameClass :=
  match Identifier.ofByte (decoded.getD 1 0) with
  | .staticStatusResponse =>
      if StaticStatus.widths.sum ≤ (Frame.payload decoded).length then
        .status (.ofPayload (Frame.payload decoded))
      else .rejected
  | .unknown _ => .unknown
  | _ => .ignored

/-- The class of a frame. -/
def of (wire : Bytes) : FrameClass :=
  match (Frame.decodeInto wire (Bytes.zeros ReportReader.bufferSize)).result with
  | .ok decoded => ofDecoded decoded
  | .error _ => .rejected

/-- The report of a static status. -/
def report? : FrameClass → Option StaticStatus
  | .status report => some report
  | _ => none

theorem ofLoaded_of_frame {r : ReportReader} (hlen : 2 ≤ r.frame.length) :
    ofLoaded (.ok (), r) = ofDecoded r.frame := by
  have hfits : _ ↔ ReportReader.payloadOffset + StaticStatus.widths.sum ≤ _ :=
    Cursor.shortage?_eq_none_iff (Nat.le_add_right ReportReader.payloadOffset r.dataLength)
  rw [Nat.add_le_add_iff_left, ReportReader.dataLength, ← Frame.length_payload] at hfits
  simp only [ofLoaded, ofDecoded, ReportReader.identifier, ReportReader.staticStatus_eq hlen,
    ReportReader.dataLength, ← Frame.length_payload]
  generalize Identifier.ofByte (r.frame.getD 1 0) = identifier
  cases identifier with
  | staticStatusResponse =>
      by_cases hmin : StaticStatus.widths.sum ≤ (Frame.payload r.frame).length
      · simp only [if_pos hmin, hfits.mpr hmin]
      · obtain ⟨e, hshort⟩ := Option.ne_none_iff_exists'.mp (mt hfits.mp hmin)
        simp only [if_neg hmin, hshort]
  | _ => rfl

/-- A load gives the class of the frame, whatever the reader had before. -/
theorem ofLoaded_load {r : ReportReader} (h : r.buffer.length = ReportReader.bufferSize)
    (wire : Bytes) : ofLoaded (r.load wire) = of wire := by
  have hroom : (Frame.decodeInto wire (Bytes.zeros ReportReader.bufferSize)).result =
      (Frame.decodeInto wire r.buffer).result :=
    Frame.result_decodeInto_congr (by rw [Bytes.length_zeros, h])
  rw [of, hroom]
  cases hresult : (Frame.decodeInto wire r.buffer).result with
  | error e => simp only [ReportReader.load, hresult, ofLoaded]
  | ok decoded =>
      obtain ⟨hok, hframe⟩ := ReportReader.load_of_decodeInto hresult
      obtain ⟨_, content, _, _, _, _, hform⟩ := Frame.decodeInto_eq_ok_iff.mp hresult
      have hlen : 2 ≤ (r.load wire).2.frame.length := by
        rw [hframe, hform]
        simp
      rw [← Prod.eta (r.load wire), hok, ofLoaded_of_frame hlen, hframe]

end FrameClass

/-! ## Runs -/

namespace StatusWatch

/-- What the frames of a list add to a counter. -/
def added (wires : List Bytes) : Counter → Nat
  | .decodeErrors => (wires.filter (FrameClass.of · = .rejected)).length
  | .decodeErrorBytes => ((wires.filter (FrameClass.of · = .rejected)).map List.length).sum
  | .staticStatusResponses => (wires.filter fun wire => (FrameClass.of wire).report?.isSome).length
  | .unknownIdentifiers => (wires.filter (FrameClass.of · = .unknown)).length
  | _ => 0

/-- The reports of the frames of a list. -/
def reports (wires : List Bytes) : List StaticStatus :=
  wires.filterMap fun wire => (FrameClass.of wire).report?

theorem added_append (front back : List Bytes) (counter : Counter) :
    added (front ++ back) counter = added front counter + added back counter := by
  cases counter <;> simp [added]

theorem getLast?_reports_concat (wires : List Bytes) (wire : Bytes) :
    (reports (wires ++ [wire])).getLast? =
      (FrameClass.of wire).report?.or (reports wires).getLast? := by
  cases hreport : (FrameClass.of wire).report? <;> simp [reports, hreport]

theorem count_count (wire : Bytes) (tally : Tally) (counter : Counter) :
    (count wire tally (.of wire)).count counter =
      tally.count counter + UInt64.ofNat (added [wire] counter) := by
  cases hclass : FrameClass.of wire <;>
    cases counter <;>
    simp [count, added, hclass, FrameClass.report?, Tally.addMessage, Tally.increment,
      Tally.count_add]

/-- A watch that has received these frames, from a tally to another. -/
structure HasReceived (wires : List Bytes) (start : Tally) (w : StatusWatch) (tally : Tally) :
    Prop where
  /-- The reader keeps its room. -/
  room : w.reader.buffer.length = ReportReader.bufferSize
  snapshot_eq : w.snapshot = (reports wires).getLast?
  count_eq : ∀ counter,
    tally.count counter = start.count counter + UInt64.ofNat (added wires counter)

/-- Only a static status replaces the snapshot. -/
theorem HasReceived.snapshot_receive {wires : List Bytes} {start tally : Tally} {w : StatusWatch}
    (h : HasReceived wires start w tally) (wire : Bytes) :
    (w.receive tally wire).1.snapshot = (FrameClass.of wire).report?.or w.snapshot := by
  simp only [receive, FrameClass.ofLoaded_load h.room]
  cases FrameClass.of wire <;> rfl

theorem HasReceived.receive {wires : List Bytes} {start tally : Tally} {w : StatusWatch}
    (h : HasReceived wires start w tally) (wire : Bytes) :
    HasReceived (wires ++ [wire]) start (w.receive tally wire).1 (w.receive tally wire).2 where
  room := (ReportReader.length_buffer_load w.reader wire).trans h.room
  snapshot_eq := by
    rw [h.snapshot_receive, h.snapshot_eq, getLast?_reports_concat]
  count_eq counter := by
    simp only [StatusWatch.receive, FrameClass.ofLoaded_load h.room]
    rw [count_count, h.count_eq, added_append, UInt64.ofNat_add, UInt64.add_assoc]

end StatusWatch

end CabinetBus
