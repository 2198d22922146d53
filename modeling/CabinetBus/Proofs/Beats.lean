-- SUMMARY: Which runs of a real metronome stay on its grid, whatever the overruns.
import Mathlib.Data.List.Basic
import Mathlib.Tactic.Ring
import CabinetBus.Poll.Metronome

/-!
# The grid of a metronome

A real metronome that is never asked before the beat it promised last is to promise, call by call,
the next of the instants that lie whole cycles behind its start. It counts the cycles of an overrun in
a 32-bit word, though, and a beat found by a count that went round that word is over already. So the
length of the overruns alone decides whether a run stays on the grid.
-/

namespace CabinetBus

namespace Metronome

/-! ## One call -/

/-- A call bears on the beat and on the count of clicks. -/
theorem next_eq_update (m : Metronome) (now : Nat) : ∃ wait beat,
    m.next now = (wait, { m with beat, clicks := (m.clicks + 1) % UInt64.size }) := by
  unfold next
  dsimp only
  split
  · exact ⟨_, _, rfl⟩
  · split <;> exact ⟨_, _, rfl⟩

theorem cycle_next (m : Metronome) (now : Nat) : (m.next now).2.cycle = m.cycle := by
  obtain ⟨wait, beat, heq⟩ := m.next_eq_update now
  simp only [heq]

theorem isReal_next (m : Metronome) (now : Nat) : (m.next now).2.isReal = m.isReal := by
  obtain ⟨wait, beat, heq⟩ := m.next_eq_update now
  simp only [heq]

theorem clicks_next (m : Metronome) (now : Nat) :
    (m.next now).2.clicks = (m.clicks + 1) % UInt64.size := by
  obtain ⟨wait, beat, heq⟩ := m.next_eq_update now
  simp only [heq]

/-- The number of missed beats is known modulo the values of a word. -/
theorem toNat_missedBeats (m : Metronome) (elapsed : Nat) :
    (m.missedBeats elapsed).toNat = (elapsed / m.cycle + 1) % UInt32.size := by
  simp [missedBeats, UInt32.size]

/-- The beat behind `now` by the word that counts the cycles since the latest beat. -/
def nextBeat (m : Metronome) (now : Nat) : Nat :=
  m.beat + m.cycle * (m.missedBeats (now - m.beat)).toNat

/-- In time or not, a real metronome moves on to the next beat, and waits for it if it is not over. -/
theorem next_of_real {m : Metronome} (hreal : m.isReal = true) (hcycle : 0 < m.cycle) {now : Nat}
    (hbeat : m.beat ≤ now) :
    (m.next now).1 = m.nextBeat now - now ∧ (m.next now).2.beat = m.nextBeat now := by
  unfold next nextBeat
  dsimp only
  split
  · rename_i hearly
    have hone : (m.missedBeats (now - m.beat)).toNat = 1 := by
      simp only [toNat_missedBeats, Nat.div_eq_of_lt hearly]
      rfl
    simp only [hone, Nat.mul_one, and_true]
    omega
  · have hkeeps : (m.isReal && m.cycle != 0) = true := by simp [hreal, hcycle.ne']
    simp only [hkeeps, if_true, and_self]

/-! ## Overruns -/

/-- How many cycles an overrun must last for the word that counts them to go round. -/
def roundCycles : Nat := UInt32.size - 1

section

variable {m : Metronome} (hreal : m.isReal = true) (hcycle : 0 < m.cycle) {now : Nat}
  (hbeat : m.beat ≤ now)
include hreal hcycle hbeat

/-- Behind an overrun that the word can count comes the next beat on the grid. -/
theorem next_of_short (hshort : now < m.beat + roundCycles * m.cycle) :
    ∃ missed, (m.next now).2.beat = m.beat + (missed + 1) * m.cycle ∧
      now + (m.next now).1 = (m.next now).2.beat ∧
      0 < (m.next now).1 ∧ (m.next now).1 ≤ m.cycle := by
  obtain ⟨hwait, hnext⟩ := next_of_real hreal hcycle hbeat
  obtain ⟨elapsed, rfl⟩ := Nat.exists_eq_add_of_le hbeat
  have hmissed : elapsed / m.cycle < roundCycles :=
    (Nat.div_lt_iff_lt_mul hcycle).mpr (Nat.lt_of_add_lt_add_left hshort)
  have hword : (elapsed / m.cycle + 1) % UInt32.size = elapsed / m.cycle + 1 :=
    Nat.mod_eq_of_lt (Nat.add_lt_of_lt_sub hmissed)
  have hgrid : m.nextBeat (m.beat + elapsed) = m.beat + (elapsed / m.cycle + 1) * m.cycle := by
    simp only [nextBeat, Nat.add_sub_cancel_left, toNat_missedBeats, hword, Nat.mul_comm]
  have hsplit := Nat.div_add_mod' elapsed m.cycle
  have hrest := Nat.mod_lt elapsed hcycle
  refine ⟨elapsed / m.cycle, hnext.trans hgrid, ?_, ?_, ?_⟩
  all_goals
    simp only [hwait, hnext, hgrid, Nat.add_mul, Nat.one_mul]
    omega

/-- The beat found behind a longer overrun is over. -/
theorem next_of_long (hlong : m.beat + roundCycles * m.cycle ≤ now) : (m.next now).1 = 0 := by
  obtain ⟨hwait, _⟩ := next_of_real hreal hcycle hbeat
  obtain ⟨elapsed, rfl⟩ := Nat.exists_eq_add_of_le hbeat
  have hmissed : roundCycles ≤ elapsed / m.cycle :=
    (Nat.le_div_iff_mul_le hcycle).mpr (Nat.le_of_add_le_add_left hlong)
  have hcount : (elapsed / m.cycle + 1) % UInt32.size ≤ elapsed / m.cycle :=
    Nat.le_trans (Nat.le_sub_one_of_lt (Nat.mod_lt _ (by decide))) hmissed
  have hover : m.nextBeat (m.beat + elapsed) ≤ m.beat + elapsed := by
    simp only [nextBeat, Nat.add_sub_cancel_left, toNat_missedBeats]
    apply Nat.add_le_add_left
    calc m.cycle * ((elapsed / m.cycle + 1) % UInt32.size)
      _ ≤ m.cycle * (elapsed / m.cycle) := Nat.mul_le_mul_left _ hcount
      _ ≤ elapsed := Nat.mul_div_le elapsed m.cycle
  exact hwait.trans (Nat.sub_eq_zero_of_le hover)

end

/-! ## Runs -/

/-- The instants that calls at the given instants are told to wait for. -/
def promises (m : Metronome) (instants : List Nat) : List Nat :=
  instants.zipWith (· + ·) (m.waits instants).1

/-- Each call of a run behind what was promised before it; the first comes behind `start`. -/
def turns (m : Metronome) (start : Nat) (instants : List Nat) : List (Nat × Nat) :=
  (start :: m.promises instants).zip instants

@[simp] theorem waits_cons (m : Metronome) (now : Nat) (later : List Nat) :
    m.waits (now :: later) =
      ((m.next now).1 :: ((m.next now).2.waits later).1, ((m.next now).2.waits later).2) := rfl

@[simp] theorem promises_cons (m : Metronome) (now : Nat) (later : List Nat) :
    m.promises (now :: later) = (now + (m.next now).1) :: (m.next now).2.promises later := by
  simp only [promises, waits_cons, List.zipWith_cons_cons]

@[simp] theorem turns_cons (m : Metronome) (start now : Nat) (later : List Nat) :
    m.turns start (now :: later) =
      (start, now) :: (m.next now).2.turns (now + (m.next now).1) later := by
  simp only [turns, promises_cons, List.zip_cons_cons]

/-- The count of clicks is the number of calls, as far as a 64-bit word tells. -/
theorem clicks_waits {m : Metronome} {count : Nat} (hcount : m.clicks = count % UInt64.size)
    (instants : List Nat) :
    (m.waits instants).2.clicks = (count + instants.length) % UInt64.size := by
  induction instants generalizing m count with
  | nil => exact hcount
  | cons now later ih =>
      have hnext : (m.next now).2.clicks = (count + 1) % UInt64.size := by
        simp only [clicks_next, hcount, Nat.mod_add_mod]
      simp only [waits_cons, ih hnext, List.length_cons]
      congr 1
      omega

/-! ## The grid -/

/-- Promises that lie whole cycles behind a base, each behind the one before it. -/
def OnGrid (base cycle : Nat) (promises : List Nat) : Prop :=
  ∃ beats : List Nat, (0 :: beats).Pairwise (· < ·) ∧
    promises = beats.map fun beat => base + beat * cycle

theorem onGrid_nil (base cycle : Nat) : OnGrid base cycle [] :=
  ⟨[], List.pairwise_singleton _ _, rfl⟩

/-- A grid goes on from each of its beats. -/
theorem OnGrid.cons {base cycle missed : Nat} {promises : List Nat}
    (h : OnGrid (base + (missed + 1) * cycle) cycle promises) :
    OnGrid base cycle ((base + (missed + 1) * cycle) :: promises) := by
  obtain ⟨beats, hlater, rfl⟩ := h
  refine ⟨(missed + 1) :: beats.map (missed + 1 + ·), ?_, ?_⟩
  · have hshifted : ((0 :: beats).map (missed + 1 + ·)).Pairwise (· < ·) :=
      hlater.map _ fun _ _ hlt => Nat.add_lt_add_left hlt _
    refine List.pairwise_cons.mpr ⟨fun beat hmem => ?_, hshifted⟩
    rcases List.mem_cons.mp hmem with rfl | hmem
    · exact Nat.succ_pos missed
    · obtain ⟨later, _, rfl⟩ := List.mem_map.mp hmem
      omega
  · simp only [List.map_cons, List.map_map, Function.comp_def]
    congr 2
    funext beat
    ring

section

variable {m : Metronome} (hreal : m.isReal = true) (hcycle : 0 < m.cycle) {instants : List Nat}
  (hpatient : ∀ turn ∈ m.turns m.beat instants, turn.1 ≤ turn.2)
include hreal hcycle hpatient

/-- With no overrun too long to be counted, a run stays on the grid of the latest beat. -/
theorem onGrid_of_short
    (hshort : ∀ turn ∈ m.turns m.beat instants, turn.2 < turn.1 + roundCycles * m.cycle) :
    OnGrid m.beat m.cycle (m.promises instants) ∧
      ∀ wait ∈ (m.waits instants).1, 0 < wait ∧ wait ≤ m.cycle := by
  induction instants generalizing m with
  | nil => exact ⟨onGrid_nil _ _, fun _ hmem => nomatch hmem⟩
  | cons now later ih =>
      simp only [turns_cons, List.forall_mem_cons] at hpatient hshort
      obtain ⟨missed, hbeat, hpromise, hwait⟩ :=
        next_of_short hreal hcycle hpatient.1 hshort.1
      have hsame := m.cycle_next now
      -- The next call comes behind the beat that the metronome has moved on to.
      simp only [hpromise] at hpatient hshort
      obtain ⟨hgrid, hnear⟩ := ih ((m.isReal_next now).trans hreal) (hsame ▸ hcycle) hpatient.2
        (by simpa only [hsame] using hshort.2)
      simp only [hsame, hbeat] at hgrid hnear
      simp only [promises_cons, waits_cons, List.forall_mem_cons, hpromise, hbeat]
      exact ⟨hgrid.cons, hwait, hnear⟩

/-- If every call is to wait, no overrun was too long to be counted. -/
theorem short_of_waits (hwaits : ∀ wait ∈ (m.waits instants).1, 0 < wait) :
    ∀ turn ∈ m.turns m.beat instants, turn.2 < turn.1 + roundCycles * m.cycle := by
  induction instants generalizing m with
  | nil => exact fun _ hmem => nomatch hmem
  | cons now later ih =>
      simp only [turns_cons, waits_cons, List.forall_mem_cons] at hpatient hwaits ⊢
      have hshort : now < m.beat + roundCycles * m.cycle := by
        by_contra hlong
        exact hwaits.1.ne' (next_of_long hreal hcycle hpatient.1 (Nat.le_of_not_lt hlong))
      obtain ⟨_, _, hpromise, _⟩ := next_of_short hreal hcycle hpatient.1 hshort
      have hsame := m.cycle_next now
      simp only [hpromise] at hpatient ⊢
      have hlater := ih ((m.isReal_next now).trans hreal) (hsame ▸ hcycle) hpatient.2 hwaits.2
      exact ⟨hshort, by simpa only [hsame] using hlater⟩

end

/-- What a run that was started at the base is to be: each call is told to wait for the very next
beat on the grid, and each counts as a click. -/
structure KeepsGrid (m : Metronome) (base : Nat) (instants : List Nat) : Prop where
  on_grid : OnGrid base m.cycle (m.promises instants)
  near : ∀ wait ∈ (m.waits instants).1, 0 < wait ∧ wait ≤ m.cycle
  clicks_eq : (m.waits instants).2.clicks = instants.length

/-- A real metronome that is never asked before the beat it promised last keeps to its grid
exactly if no call comes so late that the cycles since that beat go round a 32-bit word, and as long as
the clicks do not go round a 64-bit word. -/
theorem grid_kept_iff_overruns_short {m : Metronome} (hreal : m.isReal = true)
    (hcycle : 0 < m.cycle) (base : Nat) {instants : List Nat}
    (hpatient : ∀ turn ∈ (m.start base).turns base instants, turn.1 ≤ turn.2) :
    (m.start base).KeepsGrid base instants ↔
      (∀ turn ∈ (m.start base).turns base instants,
        turn.2 < turn.1 + (UInt32.size - 1) * m.cycle) ∧
      instants.length < UInt64.size := by
  have hclicks : ((m.start base).waits instants).2.clicks = instants.length % UInt64.size := by
    simpa only [Nat.zero_add] using @clicks_waits (m.start base) 0 rfl instants
  constructor
  · intro hkept
    refine ⟨short_of_waits (m := m.start base) hreal hcycle hpatient fun wait hmem =>
      (hkept.near wait hmem).1, ?_⟩
    rw [← hkept.clicks_eq, hclicks]
    exact Nat.mod_lt _ (by decide)
  · rintro ⟨hshort, hfew⟩
    obtain ⟨hgrid, hnear⟩ := onGrid_of_short (m := m.start base) hreal hcycle hpatient hshort
    exact ⟨hgrid, hnear, hclicks.trans (Nat.mod_eq_of_lt hfew)⟩

/-- Two calls that come late by a few cycles are told to wait for beats of the grid. -/
theorem grid_kept_iff_overruns_short_two_late :
    let m := new 100 true 0
    let instants := [247, 410]
    (∀ turn ∈ (m.start 7).turns 7 instants, turn.1 ≤ turn.2) ∧
      (m.start 7).promises instants = [307, 507] ∧ (m.start 7).KeepsGrid 7 instants := by
  intro m instants
  have hpatient : ∀ turn ∈ (m.start 7).turns 7 instants, turn.1 ≤ turn.2 := by decide
  exact ⟨hpatient, by decide,
    (grid_kept_iff_overruns_short (m := m) rfl (by decide) 7 hpatient).mpr (by decide)⟩

/-- A click a millisecond is off its grid behind 2 ^ 32 milliseconds without a call: the call that
ends them is not told to wait at all. -/
theorem grid_lost_behind_long_overrun :
    let m := (new 1000000 true 0).start 0
    let instants := [4294967296 * 1000000]
    (∀ turn ∈ m.turns 0 instants, turn.1 ≤ turn.2) ∧ (m.waits instants).1 = [0] ∧
      ¬m.KeepsGrid 0 instants := by
  intro m instants
  have hwaits : (m.waits instants).1 = [0] := by decide +kernel
  refine ⟨by decide +kernel, hwaits, fun hkept => ?_⟩
  have hnear := hkept.near 0 (hwaits ▸ List.mem_singleton_self 0)
  exact Nat.lt_irrefl 0 hnear.1

end Metronome

end CabinetBus
