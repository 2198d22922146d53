-- SUMMARY: Every run of the assembler on its area answers as a bounded list of pending bytes does.
import CabinetBus.Proofs.AssemblerArea

/-!
# Runs of the assembler

Pushes, pops and clears in any order, on the area, on the assembler and on a bare list of pending
bytes with a bound on its length. All three answer alike, also if the pending bytes are moved to the
front of the area where that was not needed: how often they were moved cannot be seen.
-/

namespace CabinetBus.Frame

inductive Operation where
  | push (chunk : Bytes)
  | pop
  | clear

/-- What is seen of an operation: what it answers, and how many bytes are pending then. -/
structure Observed where
  answer : Except AssemblerOverflow (Option Bytes)
  length : Nat

/-- An operation, and whether the pending bytes are moved to the front before it, needed or not. -/
structure Step where
  moves : Bool
  operation : Operation

/-- What is seen of a run of steps, and what the last one leaves. -/
def collect {State Input : Type} (step : State → Input → Observed × State) (s : State) :
    List Input → List Observed × State
  | [] => ([], s)
  | input :: later =>
      let (seen, next) := step s input
      let (others, last) := collect step next later
      (seen :: others, last)

/-! ## On the area -/

namespace Area

def answer? (s : Area) : Operation → Option (Except AssemblerOverflow (Option Bytes) × Area)
  | .push chunk => do
      let (pushed, t) ← s.push? chunk
      return (pushed.map fun _ => none, t)
  | .pop => do
      let (frame, t) ← s.pop?
      return (.ok frame, t)
  | .clear => some (.ok none, s.reset)

def move? (s : Area) (step : Step) : Option Area := if step.moves then s.compact? else some s

def step? (s : Area) (step : Step) : Option (Observed × Area) := do
  let (answer, t) ← (← s.move? step).answer? step.operation
  return (⟨answer, ← t.length?⟩, t)

def run? (s : Area) : List Step → Option (List Observed × Area)
  | [] => some ([], s)
  | step :: later => do
      let (seen, t) ← s.step? step
      let (others, last) ← t.run? later
      return (seen :: others, last)

end Area

/-! ## On the assembler -/

namespace Assembler

def answer (a : Assembler) : Operation → Except AssemblerOverflow (Option Bytes) × Assembler
  | .push chunk =>
      match a.push chunk with
      | .ok b => (.ok none, b)
      | .error e => (.error e, a)
  | .pop => (.ok a.pop.1, a.pop.2)
  | .clear => (.ok none, a.clear)

def move (a : Assembler) (step : Step) : Assembler := if step.moves then a.compact else a

def step (a : Assembler) (step : Step) : Observed × Assembler :=
  let (answer, b) := (a.move step).answer step.operation
  (⟨answer, b.length⟩, b)

end Assembler

namespace Area

variable {s : Area} {a : Assembler}

theorem Shows.answer? (h : s.Shows a) (operation : Operation) :
    ∃ t, s.answer? operation = some ((a.answer operation).1, t) ∧
      t.Shows (a.answer operation).2 := by
  cases operation with
  | push chunk =>
      have hpush := h.push chunk
      simp only [Area.answer?, Assembler.answer]
      cases hresult : a.push chunk with
      | ok b =>
          rw [hresult] at hpush
          obtain ⟨t, hanswer, ht⟩ := hpush
          rw [hanswer]
          exact ⟨t, rfl, ht⟩
      | error e =>
          rw [hresult] at hpush
          rw [show s.push? chunk = some (.error e, s) from hpush]
          exact ⟨s, rfl, h⟩
  | pop =>
      obtain ⟨t, hanswer, ht⟩ := h.pop
      exact ⟨t, by rw [Area.answer?, hanswer]; rfl, ht⟩
  | clear => exact ⟨s.reset, rfl, h.reset⟩

theorem Shows.move? (h : s.Shows a) (step : Step) :
    ∃ t, s.move? step = some t ∧ t.Shows (a.move step) := by
  unfold Area.move? Assembler.move
  split
  · exact h.compact?
  · exact ⟨s, rfl, h⟩

theorem Shows.step? (h : s.Shows a) (step : Step) :
    ∃ t, s.step? step = some ((a.step step).1, t) ∧ t.Shows (a.step step).2 := by
  obtain ⟨r, hmove, hr⟩ := h.move? step
  obtain ⟨t, hanswer, ht⟩ := hr.answer? step.operation
  refine ⟨t, ?_, ht⟩
  simp only [Area.step?, hmove, hanswer, ht.length?, Option.bind_eq_bind, Option.bind_some]
  rfl

theorem Shows.run? (h : s.Shows a) (done : List Step) :
    ∃ t, s.run? done = some ((collect Assembler.step a done).1, t) ∧
      t.Shows (collect Assembler.step a done).2 := by
  induction done generalizing s a with
  | nil => exact ⟨s, rfl, h⟩
  | cons step later ih =>
      obtain ⟨r, hstep, hr⟩ := h.step? step
      obtain ⟨t, hrun, ht⟩ := ih hr
      refine ⟨t, ?_, ht⟩
      simp only [Area.run?, hstep, hrun, Option.bind_eq_bind, Option.bind_some]
      rfl

end Area

/-! ## On a list -/

namespace Backlog

/-- What a push takes in of a chunk: with nothing pending, no byte before its first start marker. -/
def admitted (pending chunk : Bytes) : Bytes :=
  if pending = [] then chunk.dropWhile (· != startMarker) else chunk

/-- What an operation answers with these bytes pending and room for `capacity`, and the bytes that
are pending then. -/
def answer (capacity : Nat) (pending : Bytes) :
    Operation → Except AssemblerOverflow (Option Bytes) × Bytes
  | .push chunk =>
      if pending.length + (admitted pending chunk).length ≤ capacity then
        (.ok none, pending ++ admitted pending chunk)
      else (.error ⟨(admitted pending chunk).length, capacity - pending.length⟩, pending)
  | .pop =>
      match Assembler.seek pending 0 none false with
      | .frame start stop => (.ok (some (pending.slice start (stop + 1))), pending.drop (stop + 1))
      | .begun start => (.ok none, pending.drop start)
      | .nothing => (.ok none, [])
  | .clear => (.ok none, [])

def perform (capacity : Nat) (pending : Bytes) (operation : Operation) : Observed × Bytes :=
  let (answer, left) := answer capacity pending operation
  (⟨answer, left.length⟩, left)

/-- What is seen of operations that begin with nothing pending, and what they leave pending. -/
def run (capacity : Nat) (done : List Operation) : List Observed × Bytes :=
  collect (perform capacity) [] done

end Backlog

namespace Assembler

variable {a : Assembler} {capacity : Nat}

theorem admitted_eq (a : Assembler) (chunk : Bytes) :
    a.admitted chunk = Backlog.admitted a.pending chunk := by
  simp only [admitted, Backlog.admitted, isEmpty, List.isEmpty_iff]

theorem LiesIn.move (h : a.LiesIn capacity) (step : Step) : (a.move step).LiesIn capacity := by
  unfold Assembler.move
  split
  · exact h.compact
  · exact h

theorem pending_move (a : Assembler) (step : Step) : (a.move step).pending = a.pending := by
  unfold move
  split <;> rfl

theorem LiesIn.answer (h : a.LiesIn capacity) (operation : Operation) :
    (a.answer operation).2.LiesIn capacity ∧
      Backlog.answer capacity a.pending operation =
        ((a.answer operation).1, (a.answer operation).2.pending) := by
  cases operation with
  | push chunk =>
      simp only [Assembler.answer, Backlog.answer, ← admitted_eq]
      by_cases hroom : a.pending.length + (a.admitted chunk).length ≤ capacity
      · obtain ⟨b, hpush, hlies⟩ := h.push hroom
        rw [hpush, if_pos hroom, ← pending_push hpush]
        exact ⟨hlies, rfl⟩
      · rw [h.push_eq_error (Nat.lt_of_not_le hroom), if_neg hroom]
        exact ⟨h, rfl⟩
  | pop =>
      refine ⟨h.pop, ?_⟩
      simp only [Assembler.answer, Backlog.answer, Assembler.pop]
      cases seek a.pending 0 none false with
      | frame start stop => simp only [pending_skip]
      | begun start => simp only [pending_skip]
      | nothing => rfl
  | clear => exact ⟨h.clear, rfl⟩

theorem LiesIn.step (h : a.LiesIn capacity) (step : Step) :
    (a.step step).2.LiesIn capacity ∧
      Backlog.perform capacity a.pending step.operation =
        ((a.step step).1, (a.step step).2.pending) := by
  obtain ⟨hlies, hanswer⟩ := (h.move step).answer step.operation
  rw [pending_move] at hanswer
  refine ⟨hlies, ?_⟩
  rw [Backlog.perform, hanswer]
  rfl

theorem LiesIn.run (h : a.LiesIn capacity) (done : List Step) :
    (collect Assembler.step a done).2.LiesIn capacity ∧
      collect (Backlog.perform capacity) a.pending (done.map Step.operation) =
        (collect Assembler.step a done).map id pending := by
  induction done generalizing a with
  | nil => exact ⟨h, rfl⟩
  | cons step later ih =>
      obtain ⟨hstep, hseen⟩ := h.step step
      obtain ⟨hlies, hothers⟩ := ih hstep
      refine ⟨hlies, ?_⟩
      simp only [List.map_cons, collect, hseen, hothers]
      rfl

end Assembler

/-! ## The area is the list -/

namespace Area

/-- What holds of an area between operations, when `pending` is pending in it. -/
structure Holds (s : Area) (capacity : Nat) (pending : Bytes) : Prop where
  length_buffer : s.buffer.length = capacity
  readPos_le : s.readPos ≤ s.writePos
  writePos_le : s.writePos ≤ capacity
  atFront : s.readPos = s.writePos → s.readPos = 0 ∧ s.writePos = 0
  pending_eq : s.pending = pending
  length?_eq : s.length? = some pending.length

variable {s : Area} {a : Assembler} {capacity : Nat}

theorem Shows.pending_eq (h : s.Shows a) : s.pending = a.pending := by
  obtain ⟨front, pending, free, _⟩ := h
  have hslice := slice?_pending_laid front pending free
  rw [Bytes.slice?] at hslice
  split at hslice
  · exact Option.some.inj hslice
  · cases hslice

theorem Shows.holds (h : s.Shows a) (hlies : a.LiesIn capacity) : s.Holds capacity a.pending := by
  have hpending := h.pending_eq
  have hlength := h.length?
  obtain ⟨front, pending, free, hfront⟩ := h
  have hcapacity : front.length + pending.length + free.length = capacity := hlies.capacity_eq
  refine ⟨(length_buffer_laid front pending free).trans hcapacity, Nat.le_add_right _ _,
    hlies.writePos_le, fun hsame => ?_, hpending, hlength⟩
  have hnil : pending = [] := List.length_eq_zero_iff.mp (Nat.add_eq_left.mp hsame.symm)
  rw [hnil, hfront hnil]
  exact ⟨rfl, rfl⟩

/-- A push takes in all it admits, or says what room there is and changes nothing. -/
theorem Shows.push?_eq (h : s.Shows a) (hlies : a.LiesIn capacity) (chunk : Bytes) :
    if a.pending.length + (Backlog.admitted a.pending chunk).length ≤ capacity then
      ∃ t, s.push? chunk = some (.ok (), t) ∧
        t.pending = a.pending ++ Backlog.admitted a.pending chunk
    else
      s.push? chunk = some (.error
        ⟨(Backlog.admitted a.pending chunk).length, capacity - a.pending.length⟩, s) := by
  have hpush := h.push chunk
  rw [← Assembler.admitted_eq]
  split
  · rename_i hroom
    obtain ⟨b, hresult, _⟩ := hlies.push hroom
    rw [hresult] at hpush
    obtain ⟨t, hanswer, ht⟩ := hpush
    exact ⟨t, hanswer, ht.pending_eq.trans (Assembler.pending_push hresult)⟩
  · rename_i hroom
    rw [hlies.push_eq_error (Nat.lt_of_not_le hroom)] at hpush
    exact hpush

/-- Whatever is done, and however often the pending bytes are moved, every access lies in the area,
and what is seen is what is seen of a list of pending bytes that may not get longer than the
area. -/
theorem area_refines_backlog (capacity : Nat) (done : List Step) :
    ∃ seen pending s, Backlog.run capacity (done.map Step.operation) = (seen, pending) ∧
      (collect Assembler.step (.withCapacity capacity) done).1 = seen ∧
      (ofCapacity capacity).run? done = some (seen, s) ∧ s.Holds capacity pending ∧
      ∀ chunk,
        if pending.length + (Backlog.admitted pending chunk).length ≤ capacity then
          ∃ t, s.push? chunk = some (.ok (), t) ∧
            t.pending = pending ++ Backlog.admitted pending chunk
        else
          s.push? chunk = some (.error
            ⟨(Backlog.admitted pending chunk).length, capacity - pending.length⟩, s) := by
  obtain ⟨s, hrun, hshows⟩ := (shows_ofCapacity capacity).run? done
  obtain ⟨hlies, hseen⟩ := (Assembler.liesIn_withCapacity capacity).run done
  exact ⟨_, _, s, hseen, rfl, hrun, hshows.holds hlies, hshows.push?_eq hlies⟩

end Area

end CabinetBus.Frame
