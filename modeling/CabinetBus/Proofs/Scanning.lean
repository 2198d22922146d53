-- SUMMARY: What a scan makes of noise and of wire frames, and how many bytes it keeps open.
import CabinetBus.Frame.Framing
import CabinetBus.Frame.Scanner

/-!
# Scanning noise and wire frames

A scan that is not inside a frame passes over everything but a start marker. A wire
frame holds no marker between its two, so a scan that meets its start runs through
to its end, gives the frame out and is idle again. Until then it keeps what it has
seen of the frame.
-/

namespace CabinetBus.Frame.Scanner

/-! ## Single bytes -/

theorem run_singleton (s : Scanner) (b : UInt8) :
    s.run [b] = ((s.step b).1, (s.step b).2.toList) := by
  simp [run_cons]

/-- One byte more, after bytes that closed no frame. -/
theorem run_concat {seen : Bytes} {first s : Scanner} (h : first.run seen = (s, [])) (b : UInt8) :
    first.run (seen ++ [b]) = ((s.step b).1, (s.step b).2.toList) := by
  rw [run_append, h, run_singleton, List.nil_append]

theorem length_taken_step_le (s : Scanner) (b : UInt8) :
    (s.step b).1.taken.length ≤ s.taken.length + 1 := by
  cases s with
  | idle =>
      rw [step]
      split <;> simp [taken]
  | inside bytes escaped =>
      cases escaped with
      | true => simp [step, taken]
      | false =>
          rw [step]
          split
          · simp [taken]
          · split <;> simp [taken]

/-- A scan keeps no byte that it has not seen. -/
theorem length_taken_run_le (s : Scanner) (bytes : Bytes) :
    (s.run bytes).1.taken.length ≤ s.taken.length + bytes.length := by
  induction bytes generalizing s with
  | nil => exact Nat.le_refl _
  | cons b rest ih =>
      have hstep := length_taken_step_le s b
      have hrest := ih (s.step b).1
      rw [List.length_cons]
      change ((s.step b).1.run rest).1.taken.length ≤ _
      omega

/-! ## Noise -/

/-- Bytes without a start marker leave an idle scanner idle. -/
theorem run_idle_of_notMem {noise : Bytes} (h : startMarker ∉ noise) :
    idle.run noise = (idle, []) := by
  induction noise with
  | nil => rfl
  | cons b noise ih =>
      have hb : b ≠ startMarker := fun heq => h (by simp [heq])
      have hrest : startMarker ∉ noise := fun hmem => h (List.mem_cons_of_mem _ hmem)
      simp [run_cons, step, hb, ih hrest]

/-- Dropping what is before the first start marker changes no scan from idle. -/
theorem run_idle_dropWhile (chunk : Bytes) :
    idle.run (chunk.dropWhile (· != startMarker)) = idle.run chunk := by
  induction chunk with
  | nil => rfl
  | cons b chunk ih =>
      by_cases hb : b = startMarker
      · simp [hb]
      · simp [hb, ih, run_cons, step]

/-! ## Wire frames -/

theorem run_escapeByte (seen : Bytes) (b : UInt8) :
    (inside seen false).run (escapeByte b) = (inside (seen ++ escapeByte b) false, []) := by
  unfold escapeByte
  split
  · simp [run_cons, step, startMarker, endMarker, escapeMarker]
  · rename_i hb
    obtain ⟨⟨hstart, hend⟩, hescape⟩ : (b ≠ startMarker ∧ b ≠ endMarker) ∧ b ≠ escapeMarker := by
      simpa [isDelimiter] using hb
    simp [run_cons, step, hstart, hend, hescape]

/-- An open frame takes in every escaped byte string whole. -/
theorem run_escape (seen body : Bytes) :
    (inside seen false).run (escape body) = (inside (seen ++ escape body) false, []) := by
  induction body generalizing seen with
  | nil => simp
  | cons b body ih =>
      rw [escape_cons, run_append, run_escapeByte, ih, List.append_assoc]
      rfl

/-- A scan finds a wire frame and is idle behind it. -/
theorem run_wireFrame (content : Bytes) :
    idle.run (wireFrame content) = (idle, [wireFrame content]) := by
  have hbody : (inside [startMarker] false).run (escapedBody content) =
      (inside (startMarker :: escapedBody content) false, []) := run_escape [startMarker] _
  have hopened : idle.run (startMarker :: escapedBody content) =
      (inside (startMarker :: escapedBody content) false, []) := by
    rw [run_cons]
    exact congrArg (fun after => (after.1, [] ++ after.2)) hbody
  exact run_concat hopened endMarker

/-- The last byte of the open frame is an escape marker whose byte has not come yet. -/
def waits : Scanner → Bool
  | idle => false
  | inside _ escaped => escaped

/-- Whatever frame was open, a wire frame behind it is given out, and the scan is idle again. It
is given out as it is, unless its start marker is taken for the byte of an escape marker: it
then ends the open frame. -/
theorem run_wireFrame_of (s : Scanner) (content : Bytes) :
    s.run (wireFrame content) =
      (idle, [if s.waits then s.taken ++ wireFrame content else wireFrame content]) := by
  cases s with
  | idle => exact run_wireFrame content
  | inside taken escaped =>
      cases escaped with
      | false => exact run_wireFrame content
      | true =>
          have hbody : (inside taken true).run (startMarker :: escapedBody content) =
              (inside (taken ++ [startMarker] ++ escapedBody content) false, []) := by
            rw [run_cons]
            exact congrArg (fun after => (after.1, [] ++ after.2)) (run_escape _ _)
          have hclosed := run_concat hbody endMarker
          rw [List.append_assoc] at hclosed
          exact hclosed.trans (congrArg (fun frame => (idle, [frame])) (List.append_assoc _ _ _))

/-! ## Open frames -/

/-- All the way through `stream`, the open frame has at most `limit` bytes. -/
def OpenAtMost (s : Scanner) (limit : Nat) (stream : Bytes) : Prop :=
  ∀ front, front <+: stream → (s.run front).1.taken.length ≤ limit

theorem openAtMost_append_iff {s : Scanner} {limit : Nat} {left right : Bytes} :
    s.OpenAtMost limit (left ++ right) ↔
      s.OpenAtMost limit left ∧ (s.run left).1.OpenAtMost limit right := by
  constructor
  · intro h
    refine ⟨fun front hfront => h front (hfront.trans (List.prefix_append _ _)), ?_⟩
    intro front hfront
    have hall := h (left ++ front) ((List.prefix_append_right_inj left).mpr hfront)
    rwa [run_append] at hall
  · rintro ⟨hleft, hright⟩ front hfront
    rcases List.prefix_or_prefix_of_prefix hfront (List.prefix_append left right) with
      hwithin | ⟨rest, rfl⟩
    · exact hleft front hwithin
    · rw [run_append]
      exact hright rest ((List.prefix_append_right_inj left).mp hfront)

theorem OpenAtMost.mono {s : Scanner} {limit other : Nat} {stream : Bytes}
    (h : s.OpenAtMost limit stream) (hle : limit ≤ other) : s.OpenAtMost other stream :=
  fun front hfront => Nat.le_trans (h front hfront) hle

/-- A scan of `stream` starts and ends idle, gives `frames`, and never keeps more than
`limit` bytes open. -/
structure Passes (limit : Nat) (stream : Bytes) (frames : List Bytes) : Prop where
  run_eq : idle.run stream = (idle, frames)
  openAtMost : idle.OpenAtMost limit stream

theorem Passes.append {limit : Nat} {left right : Bytes} {before after : List Bytes}
    (hleft : Passes limit left before) (hright : Passes limit right after) :
    Passes limit (left ++ right) (before ++ after) where
  run_eq := by rw [run_append, hleft.run_eq, hright.run_eq]
  openAtMost := by
    rw [openAtMost_append_iff, hleft.run_eq]
    exact ⟨hleft.openAtMost, hright.openAtMost⟩

theorem passes_noise {noise : Bytes} (h : startMarker ∉ noise) (limit : Nat) :
    Passes limit noise [] where
  run_eq := run_idle_of_notMem h
  openAtMost := by
    intro front hfront
    rw [run_idle_of_notMem fun hmem => h (hfront.subset hmem)]
    exact Nat.zero_le _

/-- The last byte of a wire frame is given out with it and never kept. -/
theorem passes_wireFrame (content : Bytes) :
    Passes ((wireFrame content).length - 1) (wireFrame content) [wireFrame content] where
  run_eq := run_wireFrame content
  openAtMost := by
    intro front hfront
    by_cases hall : front = wireFrame content
    · rw [hall, run_wireFrame]
      exact Nat.zero_le _
    · have hshort : front.length < (wireFrame content).length :=
        Nat.lt_of_le_of_ne hfront.length_le fun hlen => hall (hfront.eq_of_length hlen)
      have htaken : (idle.run front).1.taken.length ≤ 0 + front.length :=
        length_taken_run_le idle front
      omega

theorem Passes.mono {limit other : Nat} {stream : Bytes} {frames : List Bytes}
    (h : Passes limit stream frames) (hle : limit ≤ other) : Passes other stream frames :=
  ⟨h.run_eq, h.openAtMost.mono hle⟩

end CabinetBus.Frame.Scanner
