-- SUMMARY: Scanning chunks with bounded room, and the assembler that does so.
import CabinetBus.Proofs.Assembling

/-!
# Intake of chunks

The scanner has room for everything; an assembler has not. A chunk for which there is no
room beside the open frame is lost, with the open frame, and the scan goes on as if nothing
had been seen. Apart from that the frames are those of a scan: a frame either lies among
the bytes taken in, or it begins with the frame that was open before them.
-/

namespace CabinetBus.Frame

namespace Scanner

/-! ## Chunks -/

/-- What a chunk needs room for: with no frame open, only what follows its first start marker. -/
def awaited (s : Scanner) (chunk : Bytes) : Bytes :=
  if s.taken.isEmpty then chunk.dropWhile (· != startMarker) else chunk

/-- What comes of chunks: the state of the scan behind them, the frames that they close, and
one overflow for each chunk that is lost. -/
structure Intake where
  last : Scanner
  frames : List Bytes
  overflows : List AssemblerOverflow
  deriving DecidableEq, Repr

/-- Takes in one chunk if there is room for it beside the open frame. -/
def takeChunk (capacity : Nat) (s : Scanner) (chunk : Bytes) : Intake :=
  if capacity < s.taken.length + (s.awaited chunk).length then
    ⟨idle, [], [⟨(s.awaited chunk).length, capacity - s.taken.length⟩]⟩
  else ⟨(s.run chunk).1, (s.run chunk).2, []⟩

/-- Takes in chunks in order. -/
def intake (capacity : Nat) (s : Scanner) : List Bytes → Intake
  | [] => ⟨s, [], []⟩
  | chunk :: rest =>
      let first := s.takeChunk capacity chunk
      let later := intake capacity first.last rest
      ⟨later.last, first.frames ++ later.frames, first.overflows ++ later.overflows⟩

theorem intake_append (capacity : Nat) (s : Scanner) (front back : List Bytes) :
    s.intake capacity (front ++ back) =
      let first := s.intake capacity front
      let later := first.last.intake capacity back
      ⟨later.last, first.frames ++ later.frames, first.overflows ++ later.overflows⟩ := by
  induction front generalizing s with
  | nil => rfl
  | cons chunk rest ih => simp only [List.cons_append, intake, ih, List.append_assoc]

theorem intake_singleton (capacity : Nat) (s : Scanner) (chunk : Bytes) :
    s.intake capacity [chunk] = s.takeChunk capacity chunk := by
  simp only [intake, List.append_nil]

/-- With room for every chunk the intake is one scan of all their bytes. -/
theorem intake_of_overflows_nil {capacity : Nat} {s : Scanner} {chunks : List Bytes}
    (h : (s.intake capacity chunks).overflows = []) :
    s.intake capacity chunks = ⟨(s.run chunks.flatten).1, (s.run chunks.flatten).2, []⟩ := by
  induction chunks generalizing s with
  | nil => rfl
  | cons chunk rest ih =>
      obtain ⟨hfirst, hlater⟩ := List.append_eq_nil_iff.mp h
      have htaken : s.takeChunk capacity chunk = ⟨(s.run chunk).1, (s.run chunk).2, []⟩ := by
        unfold takeChunk at hfirst ⊢
        split
        · rename_i hfull
          rw [if_pos hfull] at hfirst
          cases hfirst
        · rfl
      rw [htaken] at hlater
      rw [intake, htaken, List.flatten_cons, run_append]
      simp only [ih hlater, List.append_nil]

/-! ## Where frames lie -/

/-- A piece that ends among `bytes`: it lies there whole, or it begins with what was open before. -/
def EndsIn (opened bytes piece : Bytes) : Prop :=
  piece <:+: bytes ∨ ∃ tail, tail ≠ [] ∧ tail <+: bytes ∧ piece = opened ++ tail

/-- A piece that goes on behind `bytes`: it began there, or it is all there is since it was opened
before. -/
def GoesOn (opened bytes piece : Bytes) : Prop := piece <:+ bytes ∨ piece = opened ++ bytes

theorem EndsIn.append {opened front back piece : Bytes} (h : EndsIn opened front piece) :
    EndsIn opened (front ++ back) piece := by
  rcases h with hwithin | ⟨tail, hne, htail, heq⟩
  · exact .inl (hwithin.trans (List.prefix_append _ _).isInfix)
  · exact .inr ⟨tail, hne, htail.trans (List.prefix_append _ _), heq⟩

theorem GoesOn.endsIn {opened front reopened back piece : Bytes} (h : GoesOn opened front reopened)
    (hpiece : EndsIn reopened back piece) : EndsIn opened (front ++ back) piece := by
  rcases hpiece with hwithin | ⟨tail, hne, ⟨rest, rfl⟩, rfl⟩
  · exact .inl (hwithin.trans (List.suffix_append _ _).isInfix)
  · rcases h with ⟨before, rfl⟩ | rfl
    · exact .inl ⟨before, rest, by simp only [List.append_assoc]⟩
    · refine .inr ⟨front ++ tail, fun hnil => hne (List.append_eq_nil_iff.mp hnil).2, ?_, ?_⟩
      · exact ⟨rest, by rw [List.append_assoc]⟩
      · rw [List.append_assoc]

theorem GoesOn.trans {opened front reopened back piece : Bytes} (h : GoesOn opened front reopened)
    (hpiece : GoesOn reopened back piece) : GoesOn opened (front ++ back) piece := by
  rcases hpiece with hwithin | rfl
  · exact .inl (hwithin.trans (List.suffix_append _ _))
  · rcases h with ⟨before, rfl⟩ | rfl
    · exact .inl ⟨before, by rw [List.append_assoc]⟩
    · exact .inr (List.append_assoc _ _ _)

theorem goesOn_step (s : Scanner) (b : UInt8) : GoesOn s.taken [b] (s.step b).1.taken := by
  cases s with
  | idle =>
      rw [step]
      split
      · rename_i hb
        rw [hb]
        exact .inr rfl
      · exact .inl List.nil_suffix
  | inside bytes escaped =>
      cases escaped with
      | true => exact .inr rfl
      | false =>
          rw [step]
          split
          · rename_i hb
            rw [hb]
            exact .inl (List.suffix_refl _)
          · split
            · exact .inl List.nil_suffix
            · exact .inr rfl

/-- A frame ends in the byte that closes it. -/
theorem endsIn_step {s : Scanner} {b : UInt8} {frame : Bytes} (h : (s.step b).2 = some frame) :
    EndsIn s.taken [b] frame := by
  refine .inr ⟨[b], List.cons_ne_nil _ _, List.prefix_refl _, ?_⟩
  cases s with
  | idle =>
      rw [step] at h
      split at h <;> cases h
  | inside bytes escaped =>
      cases escaped with
      | true => cases h
      | false =>
          rw [step] at h
          split at h
          · cases h
          · split at h
            · cases h
              rfl
            · cases h

/-- The open frame behind a scan, and the frames that the scan closes, come from its bytes and
from the frame that was open before. -/
theorem pieces_run (s : Scanner) (bytes : Bytes) :
    GoesOn s.taken bytes (s.run bytes).1.taken ∧
      ∀ frame ∈ (s.run bytes).2, EndsIn s.taken bytes frame := by
  induction bytes generalizing s with
  | nil => exact ⟨.inr (List.append_nil _).symm, fun frame hmem => (List.not_mem_nil hmem).elim⟩
  | cons b rest ih =>
      have hstep := goesOn_step s b
      obtain ⟨hopen, hframes⟩ := ih (s.step b).1
      rw [run_cons]
      refine ⟨hstep.trans hopen, fun frame hmem => ?_⟩
      rcases List.mem_append.mp hmem with hclosed | hlater
      · have hends : EndsIn s.taken [b] frame := endsIn_step (Option.mem_toList.mp hclosed)
        exact hends.append
      · exact hstep.endsIn (hframes frame hlater)

theorem pieces_takeChunk (capacity : Nat) (s : Scanner) (chunk : Bytes) :
    GoesOn s.taken chunk (s.takeChunk capacity chunk).last.taken ∧
      ∀ frame ∈ (s.takeChunk capacity chunk).frames, EndsIn s.taken chunk frame := by
  unfold takeChunk
  split
  · exact ⟨.inl List.nil_suffix, fun frame hmem => (List.not_mem_nil hmem).elim⟩
  · exact pieces_run s chunk

/-- Lost chunks make no difference to where frames lie. -/
theorem pieces_intake (capacity : Nat) (s : Scanner) (chunks : List Bytes) :
    GoesOn s.taken chunks.flatten (s.intake capacity chunks).last.taken ∧
      ∀ frame ∈ (s.intake capacity chunks).frames, EndsIn s.taken chunks.flatten frame := by
  induction chunks generalizing s with
  | nil => exact ⟨.inr (List.append_nil _).symm, fun frame hmem => (List.not_mem_nil hmem).elim⟩
  | cons chunk rest ih =>
      obtain ⟨hfirst, hclosed⟩ := pieces_takeChunk capacity s chunk
      obtain ⟨hopen, hlater⟩ := ih (s.takeChunk capacity chunk).last
      rw [List.flatten_cons]
      refine ⟨hfirst.trans hopen, fun frame hmem => ?_⟩
      rcases List.mem_append.mp hmem with hnow | hthen
      · exact (hclosed frame hnow).append
      · exact hfirst.endsIn (hlater frame hthen)

end Scanner

/-! ## The assembler -/

namespace Assembler

open Scanner (idle)

/-- A push, and the draining behind it, does with a chunk what the intake does. -/
theorem Holds.takeChunk {a : Assembler} {s : Scanner} {capacity : Nat} (h : a.Holds s)
    (hin : a.LiesIn capacity) (chunk : Bytes) :
    (∃ e, a.push chunk = .error e ∧ s.takeChunk capacity chunk = ⟨idle, [], [e]⟩) ∨
    ∃ full last, a.push chunk = .ok full ∧ full.drain.2.LiesIn capacity ∧
      full.drain.2.Holds last ∧ s.takeChunk capacity chunk = ⟨last, full.drain.1, []⟩ := by
  have hlength : a.length = s.taken.length := congrArg List.length h.pending_eq
  have hadmitted : a.admitted chunk = s.awaited chunk := by
    rw [admitted, Scanner.awaited, isEmpty, h.pending_eq]
  by_cases hfull : capacity < s.taken.length + (s.awaited chunk).length
  · refine .inl ⟨_, hin.push_eq_error (by rwa [hlength, hadmitted]), ?_⟩
    rw [Scanner.takeChunk, if_pos hfull, hlength, hadmitted]
  · obtain ⟨full, hpush, hroom⟩ : ∃ full, a.push chunk = .ok full ∧ full.LiesIn capacity :=
      hin.push (by rw [hlength, hadmitted]; exact Nat.not_lt.mp hfull)
    obtain ⟨hframes, hholds⟩ := h.drain_push hpush
    refine .inr ⟨full, _, hpush, hroom.drain, hholds, ?_⟩
    rw [Scanner.takeChunk, if_neg hfull, hframes]

/-- What is forgotten leaves an idle scan. -/
theorem holds_clear (a : Assembler) : a.clear.Holds idle := ⟨rfl, rfl⟩

end Assembler

end CabinetBus.Frame
