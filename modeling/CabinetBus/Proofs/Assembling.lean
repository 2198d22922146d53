-- SUMMARY: The assembler gives out the frames that one pass over all pushed bytes finds.
import CabinetBus.Frame.Assembler
import CabinetBus.Proofs.Scanning

/-!
# Assembling as scanning

The scanner looks at every byte once; the assembler looks at its pending bytes
again at every pop. One invariant links them: a scan of the pending bytes alone
ends as the scan of all bytes pushed so far, and finds the frames that are still
to be given out. What a pop drops is what the scanner has no more use for.
-/

namespace CabinetBus.Frame

namespace Assembler

open Scanner (idle inside)

/-! ## One pass over the pending bytes -/

/-- What a pass knows after the bytes `seen`: a scan of them is idle, or is inside the frame
that begins at the last start marker, and so is a scan that begins there. -/
inductive Sought (seen : Bytes) : Option Nat → Bool → Prop where
  | outside : idle.run seen = (idle, []) → Sought seen none false
  | within {start : Nat} {escaped : Bool} : start ≤ seen.length →
      idle.run seen = (inside (seen.drop start) escaped, []) →
      idle.run (seen.drop start) = (inside (seen.drop start) escaped, []) →
      Sought seen (some start) escaped

/-- What is found among `bytes` is what a scan of them finds first. -/
def Found.Explains (bytes : Bytes) : Found → Prop
  | .frame start stop =>
      idle.run (bytes.take (stop + 1)) = (idle, [bytes.slice start (stop + 1)])
  | .begun start =>
      ∃ escaped, idle.run bytes = (inside (bytes.drop start) escaped, []) ∧
        idle.run (bytes.drop start) = (inside (bytes.drop start) escaped, [])
  | .nothing => idle.run bytes = (idle, [])

/-- A start marker that is not protected begins a frame, wherever the pass is. -/
theorem sought_start {seen : Bytes} {s : Scanner} (h : idle.run seen = (s, []))
    (hstep : s.step startMarker = (inside [startMarker] false, none)) :
    Sought (seen ++ [startMarker]) (some seen.length) false := by
  have hdrop : (seen ++ [startMarker]).drop seen.length = [startMarker] := by simp
  refine .within (by simp) ?_ ?_
  · rw [hdrop, Scanner.run_concat h, hstep]
    rfl
  · rw [hdrop]
    rfl

/-- A byte that the open frame takes leaves the pass at the same start marker. -/
theorem sought_taken {seen : Bytes} {start : Nat} {escaped after : Bool} {b : UInt8}
    (hle : start ≤ seen.length)
    (hseen : idle.run seen = (inside (seen.drop start) escaped, []))
    (hframe : idle.run (seen.drop start) = (inside (seen.drop start) escaped, []))
    (hstep : (inside (seen.drop start) escaped).step b =
      (inside (seen.drop start ++ [b]) after, none)) :
    Sought (seen ++ [b]) (some start) after := by
  have hdrop : (seen ++ [b]).drop start = seen.drop start ++ [b] :=
    List.drop_append_of_le_length hle
  refine .within (by simp; omega) ?_ ?_
  · rw [hdrop, Scanner.run_concat hseen, hstep]
    rfl
  · rw [hdrop, Scanner.run_concat hframe, hstep]
    rfl

theorem explains_seek {seen : Bytes} {start : Option Nat} {escaped : Bool}
    (h : Sought seen start escaped) (rest : Bytes) :
    (seek rest seen.length start escaped).Explains (seen ++ rest) := by
  induction rest generalizing seen start escaped with
  | nil =>
      rw [List.append_nil]
      cases h with
      | outside hseen => exact hseen
      | within _ hseen hframe => exact ⟨_, hseen, hframe⟩
  | cons b rest ih =>
      have hnext {start : Option Nat} {escaped : Bool} (h : Sought (seen ++ [b]) start escaped) :
          (seek rest (seen.length + 1) start escaped).Explains (seen ++ b :: rest) := by
        simpa using ih h
      cases h with
      | outside hseen =>
          by_cases hb : b = startMarker
          · subst hb
            exact hnext (sought_start hseen rfl)
          · have hidle : idle.run (seen ++ [b]) = (idle, []) := by
              rw [Scanner.run_concat hseen]
              simp [Scanner.step, hb]
            simpa [seek, hb] using hnext (.outside hidle)
      | @within start escaped hle hseen hframe =>
          cases escaped with
          | true => exact hnext (sought_taken hle hseen hframe rfl)
          | false =>
              by_cases hb : b = startMarker
              · subst hb
                exact hnext (sought_start hseen rfl)
              · by_cases hend : b = endMarker
                · subst hend
                  have htake : (seen ++ endMarker :: rest).take (seen.length + 1) =
                      seen ++ [endMarker] := by
                    rw [List.append_cons]
                    exact List.take_left' (by simp)
                  have hclosed : idle.run (seen ++ [endMarker]) =
                      (idle, [seen.drop start ++ [endMarker]]) := by
                    rw [Scanner.run_concat hseen]
                    rfl
                  change idle.run _ = (idle, [Bytes.slice _ start (seen.length + 1)])
                  rw [Bytes.slice, htake, hclosed, List.drop_append_of_le_length hle]
                · have hopen : (inside (seen.drop start) false).step b =
                      (inside (seen.drop start ++ [b]) (b == escapeMarker), none) := by
                    simp [Scanner.step, hb, hend]
                  simpa [seek, hb, hend] using hnext (sought_taken hle hseen hframe hopen)

/-- What the pass of a pop finds is what a scan of the pending bytes finds. -/
theorem explains_seek_pending (a : Assembler) :
    (seek a.pending 0 none false).Explains a.pending := by
  have hstart : Sought [] none false := .outside rfl
  exact explains_seek hstart a.pending

/-! ## Pops -/

@[simp] theorem pending_clear (a : Assembler) : a.clear.pending = [] := rfl

@[simp] theorem pending_skip (a : Assembler) (count : Nat) :
    (a.skip count).pending = a.pending.drop count := by
  simp only [skip]
  split
  · rename_i h
    rw [pending_clear, List.isEmpty_iff.mp h]
  · rfl

/-- A pop gives out the first frame that a scan of the pending bytes finds, and leaves bytes
whose scan finds the others and ends alike. -/
theorem run_pending_pop (a : Assembler) :
    idle.run a.pending =
      ((idle.run a.pop.2.pending).1, a.pop.1.toList ++ (idle.run a.pop.2.pending).2) := by
  have hfound := explains_seek_pending a
  unfold pop
  cases h : seek a.pending 0 none false with
  | frame start stop =>
      rw [h] at hfound
      conv => lhs; rw [← List.take_append_drop (stop + 1) a.pending, Scanner.run_append, hfound]
      simp
  | begun start =>
      rw [h] at hfound
      obtain ⟨escaped, hall, hframe⟩ := hfound
      simp [hall, hframe]
  | nothing =>
      rw [h] at hfound
      rw [show idle.run a.pending = (idle, []) from hfound]
      rfl

/-- A pop that finds nothing leaves the bytes of the open frame, of which there are none if
the scanner is idle. -/
theorem pending_pop_of_none {a : Assembler} (h : a.pop.1 = none) :
    a.pop.2.pending = (idle.run a.pending).1.taken ∧ (idle.run a.pending).2 = [] := by
  have hfound := explains_seek_pending a
  unfold pop at h ⊢
  cases hseek : seek a.pending 0 none false with
  | frame start stop =>
      rw [hseek] at h
      cases h
  | begun start =>
      rw [hseek] at hfound
      obtain ⟨escaped, hall, _⟩ := hfound
      rw [hall]
      exact ⟨pending_skip a start, rfl⟩
  | nothing =>
      rw [hseek] at hfound
      rw [show idle.run a.pending = (idle, []) from hfound]
      exact ⟨rfl, rfl⟩

/-- A pop finds nothing exactly when a scan of the pending bytes closes no frame. -/
theorem pop_eq_none_iff {a : Assembler} : a.pop.1 = none ↔ (idle.run a.pending).2 = [] := by
  constructor
  · intro h
    exact (pending_pop_of_none h).2
  · intro h
    rw [run_pending_pop] at h
    have hframe := (List.append_eq_nil_iff.mp h).1
    cases hpop : a.pop.1 with
    | none => rfl
    | some frame =>
        rw [hpop] at hframe
        cases hframe

/-- A frame takes pending bytes with it. -/
theorem length_pop_lt {a : Assembler} {frame : Bytes} (h : a.pop.1 = some frame) :
    a.pop.2.length < a.length := by
  unfold pop at h ⊢
  cases hseek : seek a.pending 0 none false with
  | frame start stop =>
      have hpos : 0 < a.pending.length := by
        cases hpending : a.pending with
        | nil =>
            rw [hpending] at hseek
            cases hseek
        | cons b rest => simp
      simp only [length, pending_skip, List.length_drop]
      omega
  | begun start =>
      rw [hseek] at h
      cases h
  | nothing =>
      rw [hseek] at h
      cases h

/-! ## Draining -/

/-- Two limits that are both above the number of pending bytes stop at the same pop. -/
theorem popUpTo_eq_of_lt {limit other : Nat} {a : Assembler} (hlimit : a.length < limit)
    (hother : a.length < other) : popUpTo limit a = popUpTo other a := by
  induction limit generalizing other a with
  | zero => omega
  | succ limit ih =>
      obtain ⟨other, rfl⟩ := Nat.exists_eq_add_one_of_ne_zero (Nat.ne_zero_of_lt hother)
      cases hpop : a.pop with
      | mk found rest =>
          cases found with
          | none => simp only [popUpTo, hpop]
          | some frame =>
              have hlt : rest.length < a.length := by
                simpa only [hpop] using length_pop_lt (congrArg Prod.fst hpop)
              have hrest : popUpTo limit rest = popUpTo other rest := ih (by omega) (by omega)
              simp only [popUpTo, hpop, hrest]

/-- Draining stops at the first pop that finds nothing. -/
theorem drain_of_none {a : Assembler} (h : a.pop.1 = none) : a.drain = ([], a.pop.2) := by
  cases hpop : a.pop with
  | mk found rest =>
      rw [hpop] at h
      cases h
      simp only [drain, popUpTo, hpop]

/-- As long as a pop finds a frame, draining goes on behind it. -/
theorem drain_of_some {a : Assembler} {frame : Bytes} (h : a.pop.1 = some frame) :
    a.drain = (frame :: a.pop.2.drain.1, a.pop.2.drain.2) := by
  have hlt : a.pop.2.length < a.length := length_pop_lt h
  cases hpop : a.pop with
  | mk found rest =>
      rw [hpop] at h hlt
      cases h
      have hrest : popUpTo a.length rest = rest.drain :=
        popUpTo_eq_of_lt hlt (Nat.lt_succ_self _)
      simp only [drain, popUpTo, hpop] at hrest ⊢
      rw [hrest]

/-- Induction along the pops of a draining. -/
@[elab_as_elim]
theorem pop_induction {motive : Assembler → Prop} (stop : ∀ a, a.pop.1 = none → motive a)
    (next : ∀ a frame, a.pop.1 = some frame → motive a.pop.2 → motive a) (a : Assembler) :
    motive a := by
  induction hlen : a.length using Nat.strongRecOn generalizing a with
  | ind n ih =>
      cases hpop : a.pop.1 with
      | none => exact stop a hpop
      | some frame => exact next a frame hpop (ih _ (hlen ▸ length_pop_lt hpop) a.pop.2 rfl)

/-- The assembler holds the bytes of the scanner's open frame and nothing else. -/
structure Holds (a : Assembler) (s : Scanner) : Prop where
  pending_eq : a.pending = s.taken
  run_pending : idle.run a.pending = (s, [])

theorem holds_withCapacity (capacity : Nat) : (withCapacity capacity).Holds idle := ⟨rfl, rfl⟩

theorem holds_pop_of_none {a : Assembler} (h : a.pop.1 = none) :
    a.pop.2.Holds (idle.run a.pending).1 := by
  obtain ⟨hpending, hframes⟩ := pending_pop_of_none h
  have hrun := run_pending_pop a
  rw [h] at hrun
  refine ⟨hpending, Prod.ext (congrArg Prod.fst hrun).symm ?_⟩
  rw [← hframes, hrun]
  rfl

/-- Draining gives out all frames that a scan of the pending bytes finds, and leaves the bytes
of the open frame. -/
theorem drain_eq_scan (a : Assembler) :
    a.drain.1 = (idle.run a.pending).2 ∧ a.drain.2.Holds (idle.run a.pending).1 := by
  induction a using pop_induction with
  | stop a hpop =>
      rw [drain_of_none hpop]
      exact ⟨(pending_pop_of_none hpop).2.symm, holds_pop_of_none hpop⟩
  | next a frame hpop ih =>
      obtain ⟨hframes, hholds⟩ := ih
      rw [drain_of_some hpop, run_pending_pop a, hpop]
      exact ⟨by rw [hframes]; rfl, hholds⟩

/-! ## Pushes -/

/-- What a push takes in of a chunk. -/
def admitted (a : Assembler) (chunk : Bytes) : Bytes :=
  if a.isEmpty then chunk.dropWhile (· != startMarker) else chunk

@[simp] theorem pending_makeRoom (a : Assembler) (incoming : Nat) :
    (a.makeRoom incoming).pending = a.pending := by
  unfold makeRoom
  split <;> rfl

theorem pending_append {a b : Assembler} {data : Bytes} (h : a.append data = .ok b) :
    b.pending = a.pending ++ data := by
  simp only [append] at h
  split at h
  · cases h
  · cases h
    rw [pending_makeRoom]

/-- A push that succeeds puts what it takes in behind the pending bytes. -/
theorem pending_push {a b : Assembler} {chunk : Bytes} (h : a.push chunk = .ok b) :
    b.pending = a.pending ++ a.admitted chunk := by
  unfold push at h
  unfold admitted
  split at h
  · rename_i hempty
    rw [if_pos hempty]
    split at h
    · rename_i hnone
      cases h
      rw [hnone, List.isEmpty_iff.mp hempty]
      rfl
    · exact pending_append h
  · rename_i hempty
    rw [if_neg hempty]
    exact pending_append h

/-- The bytes that a push drops are none that a scan would keep. -/
theorem run_pending_push {a b : Assembler} {chunk : Bytes} (h : a.push chunk = .ok b) :
    idle.run b.pending = idle.run (a.pending ++ chunk) := by
  rw [pending_push h, admitted]
  split
  · rename_i hempty
    rw [List.isEmpty_iff.mp hempty, List.nil_append, List.nil_append, Scanner.run_idle_dropWhile]
  · rfl

/-- A push and the draining behind it take the scanner through the chunk. -/
theorem Holds.drain_push {a b : Assembler} {s : Scanner} {chunk : Bytes} (h : a.Holds s)
    (hpush : a.push chunk = .ok b) :
    b.drain.1 = (s.run chunk).2 ∧ b.drain.2.Holds (s.run chunk).1 := by
  have hscan : idle.run b.pending = s.run chunk := by
    rw [run_pending_push hpush, Scanner.run_append, h.run_pending]
    rfl
  rw [← hscan]
  exact drain_eq_scan b

/-! ## Room -/

/-- The pending bytes lie in an area of `capacity` bytes, at its front when there are none. -/
structure LiesIn (a : Assembler) (capacity : Nat) : Prop where
  capacity_eq : a.capacity = capacity
  writePos_le : a.writePos ≤ capacity
  atFront : a.pending = [] → a.readPos = 0

theorem liesIn_withCapacity (capacity : Nat) : (withCapacity capacity).LiesIn capacity where
  capacity_eq := rfl
  writePos_le := Nat.zero_le _
  atFront := fun _ => rfl

theorem LiesIn.clear {a : Assembler} {capacity : Nat} (h : a.LiesIn capacity) :
    a.clear.LiesIn capacity where
  capacity_eq := h.capacity_eq
  writePos_le := Nat.zero_le _
  atFront := fun _ => rfl

theorem LiesIn.skip {a : Assembler} {capacity : Nat} (h : a.LiesIn capacity) (count : Nat) :
    (a.skip count).LiesIn capacity := by
  simp only [Assembler.skip]
  split
  · exact h.clear
  · rename_i hleft
    have hlt : count < a.pending.length := by
      refine Nat.lt_of_not_le fun hle => hleft ?_
      rw [List.drop_eq_nil_of_le hle]
      rfl
    have hwrite : a.readPos + a.pending.length ≤ capacity := h.writePos_le
    refine ⟨h.capacity_eq, ?_, fun hempty => ?_⟩
    · simp only [writePos, length, List.length_drop]
      omega
    · exact absurd (List.isEmpty_iff.mpr hempty) hleft

theorem LiesIn.pop {a : Assembler} {capacity : Nat} (h : a.LiesIn capacity) :
    a.pop.2.LiesIn capacity := by
  unfold Assembler.pop
  cases seek a.pending 0 none false with
  | frame start stop => exact h.skip (stop + 1)
  | begun start => exact h.skip start
  | nothing => exact h.clear

theorem LiesIn.drain {a : Assembler} {capacity : Nat} (h : a.LiesIn capacity) :
    a.drain.2.LiesIn capacity := by
  induction a using pop_induction with
  | stop a hpop =>
      rw [drain_of_none hpop]
      exact h.pop
  | next a frame hpop ih =>
      rw [drain_of_some hpop]
      exact ih h.pop

theorem LiesIn.compact {a : Assembler} {capacity : Nat} (h : a.LiesIn capacity) :
    a.compact.LiesIn capacity where
  capacity_eq := h.capacity_eq
  writePos_le := by
    have hwrite : a.readPos + a.length ≤ capacity := h.writePos_le
    change 0 + a.length ≤ capacity
    omega
  atFront := fun _ => rfl

theorem LiesIn.makeRoom {a : Assembler} {capacity : Nat} (h : a.LiesIn capacity)
    (incoming : Nat) : (a.makeRoom incoming).LiesIn capacity := by
  unfold Assembler.makeRoom
  split
  · exact h.compact
  · exact h

/-- All that the pending bytes do not take of the area is room. -/
theorem LiesIn.totalRoom_eq {a : Assembler} {capacity : Nat} (h : a.LiesIn capacity) :
    a.totalRoom = capacity - a.length := by
  have hwrite := h.writePos_le
  rw [totalRoom, tailRoom, h.capacity_eq, writePos]
  rw [writePos] at hwrite
  omega

/-- Moving the pending bytes to the front makes room for all that the area has room for. -/
theorem LiesIn.le_tailRoom_makeRoom {a : Assembler} {capacity incoming : Nat}
    (h : a.LiesIn capacity) (hroom : a.length + incoming ≤ capacity) :
    incoming ≤ (a.makeRoom incoming).tailRoom := by
  have hfront : a.compact.tailRoom = capacity - a.length := by
    rw [tailRoom, h.compact.capacity_eq]
    exact congrArg (capacity - ·) (Nat.zero_add _)
  have htotal := h.totalRoom_eq
  unfold Assembler.makeRoom
  split
  · omega
  · omega

theorem LiesIn.append {a : Assembler} {capacity : Nat} (h : a.LiesIn capacity) {data : Bytes}
    (hroom : a.length + data.length ≤ capacity) :
    ∃ b, a.append data = .ok b ∧ b.LiesIn capacity := by
  have hmade := h.makeRoom data.length
  have hfits := h.le_tailRoom_makeRoom hroom
  have hwrite := hmade.writePos_le
  simp only [Assembler.append, if_neg (Nat.not_lt.mpr hfits)]
  rw [tailRoom, hmade.capacity_eq] at hfits
  refine ⟨_, rfl, hmade.capacity_eq, ?_, fun hempty => ?_⟩
  · simp only [writePos, length, List.length_append] at hfits hwrite ⊢
    omega
  · exact hmade.atFront (List.append_eq_nil_iff.mp hempty).1

/-- A push succeeds if the area has room for the pending bytes and for what it takes in. -/
theorem LiesIn.push {a : Assembler} {capacity : Nat} (h : a.LiesIn capacity) {chunk : Bytes}
    (hroom : a.length + (a.admitted chunk).length ≤ capacity) :
    ∃ b, a.push chunk = .ok b ∧ b.LiesIn capacity := by
  unfold admitted at hroom
  unfold Assembler.push
  split
  · rename_i hempty
    rw [if_pos hempty] at hroom
    split
    · exact ⟨a.clear, rfl, h.clear⟩
    · exact h.append hroom
  · rename_i hempty
    rw [if_neg hempty] at hroom
    exact h.append hroom

/-- Bytes that the area has no room for are refused, whatever is moved. -/
theorem LiesIn.append_eq_error {a : Assembler} {capacity : Nat} (h : a.LiesIn capacity)
    {data : Bytes} (hroom : capacity < a.length + data.length) :
    a.append data = .error ⟨data.length, capacity - a.length⟩ := by
  have hlength : (a.makeRoom data.length).length = a.length :=
    congrArg List.length (pending_makeRoom a data.length)
  have htotal := (h.makeRoom data.length).totalRoom_eq
  rw [hlength] at htotal
  have hwrite := h.writePos_le
  rw [writePos] at hwrite
  have htail : (a.makeRoom data.length).tailRoom < data.length := by
    rw [totalRoom] at htotal
    omega
  simp only [Assembler.append, if_pos htail, htotal]

/-- A push fails if the area has no room for the pending bytes and for what it takes in. -/
theorem LiesIn.push_eq_error {a : Assembler} {capacity : Nat} (h : a.LiesIn capacity)
    {chunk : Bytes} (hroom : capacity < a.length + (a.admitted chunk).length) :
    a.push chunk = .error ⟨(a.admitted chunk).length, capacity - a.length⟩ := by
  unfold admitted at hroom ⊢
  unfold Assembler.push
  split
  · rename_i hempty
    rw [if_pos hempty] at hroom
    split
    · rename_i hnone
      have hwrite := h.writePos_le
      rw [writePos] at hwrite
      rw [hnone, List.length_nil] at hroom
      omega
    · exact h.append_eq_error hroom
  · rename_i hempty
    rw [if_neg hempty] at hroom
    exact h.append_eq_error hroom

theorem length_admitted_le (a : Assembler) (chunk : Bytes) :
    (a.admitted chunk).length ≤ chunk.length := by
  unfold admitted
  split
  · exact (List.dropWhile_sublist _).length_le
  · exact Nat.le_refl _

/-! ## Runs of pushes and pops -/

inductive Call where
  | push (chunk : Bytes)
  | pop
  deriving DecidableEq, Repr

/-- Performs calls in order and gives the frames that the pops return. A push that overflows
ends the run. -/
def calls (a : Assembler) : List Call → Except AssemblerOverflow (List Bytes × Assembler)
  | [] => .ok ([], a)
  | .push chunk :: rest =>
      match a.push chunk with
      | .error e => .error e
      | .ok next => next.calls rest
  | .pop :: rest =>
      match a.pop.2.calls rest with
      | .error e => .error e
      | .ok (frames, last) => .ok (a.pop.1.toList ++ frames, last)

/-- All bytes pushed, one chunk after the other. -/
def pushed : List Call → Bytes
  | [] => []
  | .push chunk :: rest => chunk ++ pushed rest
  | .pop :: rest => pushed rest

/-- The assembler has taken in `stream` and given out `given`: what it holds is what a scan
of the stream still needs. -/
def Follows (a : Assembler) (stream : Bytes) (given : List Bytes) : Prop :=
  idle.run stream = ((idle.run a.pending).1, given ++ (idle.run a.pending).2)

theorem follows_withCapacity (capacity : Nat) : (withCapacity capacity).Follows [] [] := rfl

theorem Follows.push {a b : Assembler} {stream chunk : Bytes} {given : List Bytes}
    (h : a.Follows stream given) (hpush : a.push chunk = .ok b) :
    b.Follows (stream ++ chunk) given := by
  rw [Follows, run_pending_push hpush, Scanner.run_append, Scanner.run_append, h]
  simp

theorem Follows.pop {a : Assembler} {stream : Bytes} {given : List Bytes}
    (h : a.Follows stream given) : a.pop.2.Follows stream (given ++ a.pop.1.toList) := by
  rw [Follows, h, run_pending_pop a]
  simp

theorem Follows.calls {a b : Assembler} {stream : Bytes} {given frames : List Bytes}
    {moves : List Call} (h : a.Follows stream given) (hrun : a.calls moves = .ok (frames, b)) :
    b.Follows (stream ++ pushed moves) (given ++ frames) := by
  induction moves generalizing a stream given frames with
  | nil =>
      cases hrun
      simpa [pushed] using h
  | cons move rest ih =>
      cases move with
      | push chunk =>
          rw [Assembler.calls] at hrun
          split at hrun
          · cases hrun
          · rename_i next hpush
            simpa [pushed] using ih (h.push hpush) hrun
      | pop =>
          rw [Assembler.calls] at hrun
          split at hrun
          · cases hrun
          · rename_i more last hrest
            cases hrun
            simpa [pushed] using ih h.pop hrest

/-- The assembler refines the scanner. After any pushes and pops, in any order and without an
overflow, the frames given out are the first that a scan of all pushed bytes finds. The next
pop finds nothing exactly when these were all of them, and it then leaves as many bytes
pending as the scanner's open frame has. -/
theorem assembler_refines_scanner {capacity : Nat} {moves : List Call} {frames : List Bytes}
    {a : Assembler} (h : (withCapacity capacity).calls moves = .ok (frames, a)) :
    frames <+: (idle.run (pushed moves)).2 ∧
    (a.pop.1 = none ↔ frames = (idle.run (pushed moves)).2) ∧
    (a.pop.1 = none → a.pop.2.length = (idle.run (pushed moves)).1.taken.length) := by
  have hfollows : idle.run (pushed moves) =
      ((idle.run a.pending).1, frames ++ (idle.run a.pending).2) :=
    (follows_withCapacity capacity).calls h
  rw [hfollows]
  refine ⟨List.prefix_append _ _, ?_, fun hnone => ?_⟩
  · rw [pop_eq_none_iff, List.self_eq_append_right]
  · exact congrArg List.length (pending_pop_of_none hnone).1

/-- The first chunk ends between an escape marker and the end marker that it protects. -/
def splitEscape : List Call :=
  [.push [0x55, 0x02, 0x10, 0x7D], .pop, .push [0x03, 0xF3, 0x03, 0x11, 0x02, 0x20], .pop]

theorem assembler_refines_scanner_splitEscape :
    (withCapacity 9).calls splitEscape =
      .ok ([[0x02, 0x10, 0x7D, 0x03, 0xF3, 0x03]], ⟨9, 6, [0x11, 0x02, 0x20]⟩) ∧
    [[0x02, 0x10, 0x7D, 0x03, 0xF3, 0x03]] <+: (idle.run (pushed splitEscape)).2 := by
  have hrun : (withCapacity 9).calls splitEscape =
      .ok ([[0x02, 0x10, 0x7D, 0x03, 0xF3, 0x03]], ⟨9, 6, [0x11, 0x02, 0x20]⟩) := rfl
  exact ⟨hrun, (assembler_refines_scanner hrun).1⟩

end Assembler

end CabinetBus.Frame
