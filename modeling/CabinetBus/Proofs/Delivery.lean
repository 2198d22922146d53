-- SUMMARY: Every frame that is sent arrives: carved out of noise, however it is cut, and loaded.
import CabinetBus.Proofs.Assembling
import CabinetBus.Proofs.RoundTrip

/-!
# Delivery of frames

A line carries wire frames with noise between them, and is read in chunks that pay
no heed to either. Each chunk is pushed and the frames that it completes are popped
before the next. What is pending between two chunks is the frame that is still
open, which lacks its last byte at least: an area for that and for one chunk never
overflows.
-/

namespace CabinetBus.Frame

/-! ## Collecting -/

namespace Assembler

/-- Pushes chunks one after the other, pops until nothing comes after each, and gives the
frames popped. -/
def collect (a : Assembler) : List Bytes → Except AssemblerOverflow (List Bytes × Assembler)
  | [] => .ok ([], a)
  | chunk :: rest =>
      match a.push chunk with
      | .error e => .error e
      | .ok full =>
          match full.drain.2.collect rest with
          | .error e => .error e
          | .ok (frames, last) => .ok (full.drain.1 ++ frames, last)

/-- With room for the largest open frame and for one chunk, collecting never overflows and
gives the frames of the scan. -/
theorem collect_eq_scan {a : Assembler} {s : Scanner} {capacity limit size : Nat}
    {chunks : List Bytes} (hlies : a.LiesIn capacity) (hholds : a.Holds s)
    (hopen : s.OpenAtMost limit chunks.flatten) (hsize : ∀ chunk ∈ chunks, chunk.length ≤ size)
    (hcapacity : limit + size ≤ capacity) :
    ∃ last, a.collect chunks = .ok ((s.run chunks.flatten).2, last) := by
  induction chunks generalizing a s with
  | nil => exact ⟨a, rfl⟩
  | cons chunk rest ih =>
      rw [List.flatten_cons, Scanner.openAtMost_append_iff] at hopen
      have hpending : a.length ≤ limit := by
        rw [length, hholds.pending_eq]
        exact hopen.1 [] List.nil_prefix
      have hadmitted := length_admitted_le a chunk
      have hchunk : chunk.length ≤ size := hsize chunk List.mem_cons_self
      have hroom : a.length + (a.admitted chunk).length ≤ capacity := by omega
      obtain ⟨full, hpush, hfull⟩ := hlies.push hroom
      obtain ⟨hframes, hleft⟩ := hholds.drain_push hpush
      obtain ⟨last, hrest⟩ := ih hfull.drain hleft hopen.2
        fun other hother => hsize other (List.mem_cons_of_mem _ hother)
      refine ⟨last, ?_⟩
      simp only [collect, hpush, hrest, hframes, List.flatten_cons, Scanner.run_append]

end Assembler

/-! ## Lines -/

/-- A frame on the line, with the noise before it. -/
structure Transmission where
  noise : Bytes
  identifier : UInt8
  payload : Bytes
  wire : Bytes
  startMarker_notMem_noise : startMarker ∉ noise
  payload_ne_nil : payload ≠ []
  length_payload_le : payload.length ≤ 251
  /-- Some buffer is large enough to frame identifier and payload in. -/
  framed : ∃ buffer : Bytes, buffer.slice 1 (payload.length + 2) = identifier :: payload ∧
    (encode buffer (payload.length + 2)).result = .ok wire

namespace Transmission

def content (t : Transmission) : Bytes := t.identifier :: t.payload

/-- What a line carries: the transmissions in order, and noise behind the last. -/
def line : List Transmission → Bytes → Bytes
  | [], tail => tail
  | t :: rest, tail => t.noise ++ t.wire ++ line rest tail

/-- The wire frame of a transmission is the one that its content has. -/
theorem wire_eq (t : Transmission) : t.wire = wireFrame t.content := by
  obtain ⟨buffer, hcontent, hwire⟩ := t.framed
  obtain ⟨_, _, _, _, hframed⟩ := encode_eq_ok_iff.mp hwire
  rw [hframed, hcontent]
  rfl

theorem length_wire_le (t : Transmission) : t.wire.length ≤ 258 := by
  obtain ⟨buffer, _, hwire⟩ := t.framed
  obtain ⟨_, _, harea, _, hframed⟩ := encode_eq_ok_iff.mp hwire
  rw [hframed, wireFrame_eq_enclosed, length_enclosed]
  exact Nat.add_le_add_right harea 2

theorem length_escapedBody_ge (t : Transmission) : 4 ≤ (escapedBody t.content).length := by
  have hpayload := List.length_pos_iff.mpr t.payload_ne_nil
  have hbody := length_escapedBody t.content
  rw [content, List.length_cons] at hbody
  rw [content]
  omega

theorem passes (t : Transmission) : Scanner.Passes 257 (t.noise ++ t.wire) [t.wire] := by
  have hwire : Scanner.Passes 257 t.wire [t.wire] := by
    have hle := t.length_wire_le
    rw [wire_eq] at hle ⊢
    exact (Scanner.passes_wireFrame t.content).mono (by omega)
  exact (Scanner.passes_noise t.startMarker_notMem_noise 257).append hwire

/-- A scan of the line finds what was sent and nothing else. -/
theorem passes_line {tail : Bytes} (h : startMarker ∉ tail) (sent : List Transmission) :
    Scanner.Passes 257 (line sent tail) (sent.map wire) := by
  induction sent with
  | nil => exact Scanner.passes_noise h 257
  | cons t rest ih => exact t.passes.append ih

/-! ## Deliveries -/

/-- What a reader answers when it loads the frame of `t`, and what it then holds. -/
structure Delivered (t : Transmission) (outcome : Except LinkError Unit × ReportReader) : Prop where
  answer : outcome.1 = .ok ()
  frame : outcome.2.frame = unframed t.content
  identifier : outcome.2.identifier = Identifier.ofByte t.identifier
  dataLength : outcome.2.dataLength = t.payload.length

theorem delivered_load (t : Transmission) {r : ReportReader}
    (h : r.buffer.length = ReportReader.bufferSize) : t.Delivered (r.load t.wire) := by
  have hroom : t.content.length + 4 ≤ r.buffer.length := by
    rw [h, content, List.length_cons, ReportReader.bufferSize]
    exact Nat.add_le_add_right t.length_payload_le 5
  have hdecoded : (decodeInto t.wire r.buffer).result = .ok (unframed t.content) := by
    rw [wire_eq, result_decodeInto_wireFrame t.length_escapedBody_ge, if_pos hroom]
  obtain ⟨hanswer, hframe⟩ := ReportReader.load_of_decodeInto hdecoded
  refine ⟨hanswer, hframe, ?_, ?_⟩
  · rw [ReportReader.identifier, hframe]
    rfl
  · rw [ReportReader.dataLength, Frame.dataLength, hframe, length_unframed, content,
      List.length_cons, overhead]
    exact Nat.add_sub_cancel _ 5

/-- Loading the frames of `sent` one after the other, one reader delivers each of them. -/
def AllDelivered (r : ReportReader) : List Transmission → Prop
  | [] => True
  | t :: rest => t.Delivered (r.load t.wire) ∧ AllDelivered (r.load t.wire).2 rest

/-- What the buffer held before makes no difference. -/
theorem allDelivered {r : ReportReader} (h : r.buffer.length = ReportReader.bufferSize)
    (sent : List Transmission) : AllDelivered r sent := by
  induction sent generalizing r with
  | nil => exact trivial
  | cons t rest ih =>
      have hnext : (r.load t.wire).2.buffer.length = ReportReader.bufferSize := by
        rw [ReportReader.length_buffer_load, h]
      exact ⟨t.delivered_load h, ih hnext⟩

/-- All that is sent is delivered. However the line is cut into chunks, an assembler with
room for one of them and for 257 bytes pops the wire frames in order and nothing else, and
one reader loads each of them with its identifier and payload. -/
theorem line_delivered {sent : List Transmission} {tail : Bytes} {chunks : List Bytes}
    {size capacity : Nat} {r : ReportReader} (htail : startMarker ∉ tail)
    (hchunks : chunks.flatten = line sent tail) (hsize : ∀ chunk ∈ chunks, chunk.length ≤ size)
    (hcapacity : 257 + size ≤ capacity) (hbuffer : r.buffer.length = ReportReader.bufferSize) :
    (∃ last, (Assembler.withCapacity capacity).collect chunks = .ok (sent.map wire, last)) ∧
    AllDelivered r sent := by
  refine ⟨?_, allDelivered hbuffer sent⟩
  have hpasses := passes_line htail sent
  rw [← hchunks] at hpasses
  obtain ⟨last, hcollect⟩ := Assembler.collect_eq_scan (Assembler.liesIn_withCapacity capacity)
    (Assembler.holds_withCapacity capacity) hpasses.openAtMost hsize hcapacity
  rw [hpasses.run_eq] at hcollect
  exact ⟨last, hcollect⟩

/-- A transmission full of markers, and a short one. -/
def markersThenShort : List Transmission :=
  [{ noise := [0x55, 0x03, 0x7D]
     identifier := 0x99
     payload := [0x02, 0x03, 0x7D]
     wire := [0x02, 0x99, 0x7D, 0x22, 0x7D, 0x23, 0x7D, 0x5D, 0x25, 0x21, 0x03]
     startMarker_notMem_noise := by decide
     payload_ne_nil := by decide
     length_payload_le := by decide
     framed := ⟨[0x00, 0x99, 0x02, 0x03, 0x7D] ++ Bytes.zeros 7, by decide,
       encode_eq_ok_iff.mpr (by decide +kernel)⟩ },
   { noise := [0x7D]
     identifier := 0x10
     payload := [0x01]
     wire := [0x02, 0x10, 0x01, 0x0E, 0x5D, 0x03]
     startMarker_notMem_noise := by decide
     payload_ne_nil := by decide
     length_payload_le := by decide
     framed := ⟨[0x00, 0x10, 0x01] ++ Bytes.zeros 3, by decide,
       encode_eq_ok_iff.mpr (by decide +kernel)⟩ }]

/-- The chunks part an escape pair, and the last end marker from its frame. -/
theorem line_delivered_markersThenShort :
    (∃ last, (Assembler.withCapacity 265).collect
      [[0x55, 0x03, 0x7D, 0x02, 0x99, 0x7D, 0x22, 0x7D],
       [0x23, 0x7D, 0x5D, 0x25, 0x21, 0x03, 0x7D, 0x02], [0x10, 0x01, 0x0E, 0x5D], [0x03, 0x03]] =
      .ok ([[0x02, 0x99, 0x7D, 0x22, 0x7D, 0x23, 0x7D, 0x5D, 0x25, 0x21, 0x03],
        [0x02, 0x10, 0x01, 0x0E, 0x5D, 0x03]], last)) ∧
    AllDelivered .empty markersThenShort := by
  refine @line_delivered markersThenShort [0x03] _ 8 265 ReportReader.empty ?_ ?_ ?_ ?_ ?_
  · decide
  · decide
  · decide
  · decide
  · exact Bytes.length_zeros _

end Transmission

end CabinetBus.Frame
