-- SUMMARY: Noise in front of wire frames costs the first of them at most.
import CabinetBus.Proofs.Assembling
import CabinetBus.Proofs.RoundTrip

/-!
# Resynchronising

A wire frame holds no marker between its two, and none of its escape markers is without
its byte. So a scan is idle behind a wire frame, whatever came before it, and finds every
further one as it is. The first is found as it is too, unless an escape marker of the noise
takes its start marker: then it ends the frame that the noise left open.
-/

namespace CabinetBus.Frame

/-- Framing has answered with this wire frame, in some buffer. -/
def IsFramed (wire : Bytes) : Prop := ∃ buffer len, (encode buffer len).result = .ok wire

theorem IsFramed.exists_content {wire : Bytes} (h : IsFramed wire) :
    ∃ content, wire = wireFrame content := by
  obtain ⟨buffer, len, hwire⟩ := h
  obtain ⟨_, _, _, _, hframed⟩ := encode_eq_ok_iff.mp hwire
  exact ⟨_, hframed⟩

/-! ## Scans of wire frames -/

namespace Scanner

/-- A scan of the noise ends inside a frame, behind an escape marker that has no byte yet. -/
def WaitsBehind (noise : Bytes) : Prop := ∃ taken, (idle.run noise).1 = inside taken true

theorem waitsBehind_iff {noise : Bytes} :
    WaitsBehind noise ↔ (idle.run noise).1.waits = true := by
  unfold WaitsBehind
  cases (idle.run noise).1 with
  | idle => simp [waits]
  | inside taken escaped => simp [waits]

/-- An open frame has its start marker at least. -/
def Opened : Scanner → Prop
  | idle => True
  | inside taken _ => taken ≠ []

theorem opened_step (s : Scanner) (b : UInt8) : (s.step b).1.Opened := by
  cases s with
  | idle =>
      rw [step]
      split
      · exact List.cons_ne_nil _ _
      · exact trivial
  | inside taken escaped =>
      have happend : taken ++ [b] ≠ [] :=
        List.append_ne_nil_of_right_ne_nil _ (List.cons_ne_nil _ _)
      cases escaped with
      | true => exact happend
      | false =>
          rw [step]
          split
          · exact List.cons_ne_nil _ _
          · split
            · exact trivial
            · exact happend

theorem Opened.run {s : Scanner} (h : s.Opened) (bytes : Bytes) : (s.run bytes).1.Opened := by
  induction bytes generalizing s with
  | nil => exact h
  | cons b rest ih => exact ih (opened_step s b)

/-- A scanner that waits has an open frame. -/
theorem Opened.taken_ne_nil {s : Scanner} (h : s.Opened) (hwaits : s.waits = true) :
    s.taken ≠ [] := by
  cases s with
  | idle => cases hwaits
  | inside taken escaped => exact h

/-- An idle scan finds wire frames in a row, and is idle behind them. -/
theorem run_idle_flatten {wires : List Bytes} (h : ∀ wire ∈ wires, IsFramed wire) :
    idle.run wires.flatten = (idle, wires) := by
  induction wires with
  | nil => rfl
  | cons wire rest ih =>
      obtain ⟨content, rfl⟩ := (h wire List.mem_cons_self).exists_content
      have hrest := ih fun other hmem => h other (List.mem_cons_of_mem _ hmem)
      rw [List.flatten_cons, run_append, run_wireFrame, hrest]
      rfl

/-- Whatever frame was open, only the first of wire frames in a row can suffer from it. -/
theorem run_flatten (s : Scanner) {first : Bytes} {rest : List Bytes}
    (h : ∀ wire ∈ first :: rest, IsFramed wire) :
    s.run (first :: rest).flatten =
      (idle, (if s.waits then s.taken ++ first else first) :: rest) := by
  obtain ⟨content, rfl⟩ := (h first List.mem_cons_self).exists_content
  have hrest := run_idle_flatten fun wire hmem => h wire (List.mem_cons_of_mem _ hmem)
  rw [List.flatten_cons, run_append, run_wireFrame_of, hrest]
  rfl

end Scanner

/-! ## Assemblers behind noise -/

namespace Assembler

open Scanner (idle)

/-- Popped to the end, an assembler has given out all frames of a scan. -/
theorem calls_append_drain {capacity : Nat} {moves : List Call} {frames : List Bytes}
    {a : Assembler} (h : (withCapacity capacity).calls moves = .ok (frames, a)) :
    frames ++ a.drain.1 = (idle.run (pushed moves)).2 := by
  have hfollows : idle.run (pushed moves) =
      ((idle.run a.pending).1, frames ++ (idle.run a.pending).2) :=
    (follows_withCapacity capacity).calls h
  rw [hfollows, (drain_eq_scan a).1]

/-- Noise costs one wire frame at most. Push any noise and wire frames behind it, cut anyhow and
with pops at any time, and pop to the end: if no push overflows, the wire frames behind the first
come last, as they are and in order. The first comes before them as it is, unless the noise leaves
an open frame that waits for the byte of an escape marker: then it ends that frame. -/
theorem noise_costs_one_frame {capacity : Nat} {moves : List Call} {frames : List Bytes}
    {a : Assembler} {noise first : Bytes} {rest : List Bytes}
    (hcalls : (withCapacity capacity).calls moves = .ok (frames, a))
    (hframed : ∀ wire ∈ first :: rest, IsFramed wire)
    (hpushed : pushed moves = noise ++ (first :: rest).flatten) :
    ∃ head, frames ++ a.drain.1 = (idle.run noise).2 ++ head :: rest ∧
      (head = first ↔ ¬ Scanner.WaitsBehind noise) ∧
      (Scanner.WaitsBehind noise → head = (idle.run noise).1.taken ++ first) := by
  have hopened : (idle.run noise).1.Opened := (show idle.Opened from trivial).run noise
  have hscan := calls_append_drain hcalls
  rw [hpushed, Scanner.run_append, Scanner.run_flatten _ hframed] at hscan
  rw [Scanner.waitsBehind_iff]
  refine ⟨_, hscan, ?_, fun hwaits => if_pos hwaits⟩
  by_cases hwaits : (idle.run noise).1.waits = true
  · have htaken := hopened.taken_ne_nil hwaits
    rw [if_pos hwaits, List.append_left_eq_self]
    exact iff_of_false htaken (not_not_intro hwaits)
  · rw [if_neg hwaits]
    exact iff_of_true rfl hwaits

/-- Stray markers, a frame cut off behind an escape marker, and then three wire frames: the first
of them is lost. The chunks part its markers, and an escape pair of the second. -/
def noisyMoves : List Call :=
  [.push [0x03, 0x7D, 0x02, 0x10, 0x03, 0x02, 0x11, 0x7D], .pop, .push [0x02, 0x10, 0xF3, 0xC1],
   .push [0x03, 0x02, 0x99, 0x7D], .pop, .pop,
   .push [0x22, 0x7D, 0x23, 0x7D, 0x5D, 0x25, 0x21, 0x03, 0x02, 0x10, 0xF3, 0xC1, 0x03]]

theorem noise_costs_one_frame_waiting :
    let markers : Bytes := [0x02, 0x99, 0x7D, 0x22, 0x7D, 0x23, 0x7D, 0x5D, 0x25, 0x21, 0x03]
    let short : Bytes := [0x02, 0x10, 0xF3, 0xC1, 0x03]
    ∃ frames a, (withCapacity 24).calls noisyMoves = .ok (frames, a) ∧
      (∀ wire ∈ [short, markers, short], IsFramed wire) ∧
      frames ++ a.drain.1 =
        [[0x02, 0x10, 0x03], [0x02, 0x11, 0x7D] ++ short, markers, short] := by
  intro markers short
  have hshort : IsFramed short :=
    ⟨[0x00, 0x10, 0x00, 0x00, 0x00], 2, encode_eq_ok_iff.mpr (by decide +kernel)⟩
  have hmarkers : IsFramed markers :=
    ⟨[0x00, 0x99, 0x02, 0x03, 0x7D] ++ Bytes.zeros 7, 5, encode_eq_ok_iff.mpr (by decide +kernel)⟩
  have hframed : ∀ wire ∈ [short, markers, short], IsFramed wire := by
    simp [hshort, hmarkers]
  have hcalls : ∃ frames a, (withCapacity 24).calls noisyMoves = .ok (frames, a) := ⟨_, _, rfl⟩
  obtain ⟨frames, a, hcalls⟩ := hcalls
  obtain ⟨head, hpopped, _, hlost⟩ := @noise_costs_one_frame 24 noisyMoves frames a
    [0x03, 0x7D, 0x02, 0x10, 0x03, 0x02, 0x11, 0x7D] short [markers, short] hcalls hframed rfl
  refine ⟨frames, a, hcalls, hframed, ?_⟩
  rw [hpopped, hlost ⟨_, rfl⟩]
  rfl

end Assembler

end CabinetBus.Frame
