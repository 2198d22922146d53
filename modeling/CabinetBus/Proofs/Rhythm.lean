-- SUMMARY: Which attempts the pacing permits over runs of any length, across the end of its count.
import CabinetBus.Proofs.Reconnecting

/-!
# The rhythm of the pacing

Attempts are counted from one since the pacing was made or last reset. It is to permit the first of
them and then every `every`-th, for ever. It counts in a 32-bit word, though, and so it reads the
number of an attempt off by whole rounds of that word: the rhythm goes on across the end of a round
only if a round holds a whole number of periods.
-/

namespace CabinetBus

namespace Pacing

/-! ## Runs -/

inductive Call where
  | attempt
  | reset

def call (p : Pacing) : Call → Pacing
  | .attempt => p.attempt.2
  | .reset => p.reset

/-- The pacing behind calls made in order. -/
def after (p : Pacing) (calls : List Call) : Pacing := calls.foldl call p

def countAfter (count : Nat) : Call → Nat
  | .attempt => count + 1
  | .reset => 0

/-- The attempts since the last reset among calls, or all of them if there was none. -/
def attemptsIn (calls : List Call) : Nat := calls.foldl countAfter 0

/-- Whether the next attempt behind calls on a new pacing is permitted. -/
def permits (every : UInt32) (calls : List Call) : Bool := ((ofEvery every).after calls).attempt.1

theorem foldl_countAfter_replicate (length count : Nat) :
    (List.replicate length Call.attempt).foldl countAfter count = count + length := by
  induction length generalizing count with
  | zero => rfl
  | succ length ih =>
      rw [List.replicate_succ, List.foldl_cons, ih, countAfter]
      omega

theorem attemptsIn_replicate (length : Nat) :
    attemptsIn (List.replicate length .attempt) = length := by
  rw [attemptsIn, foldl_countAfter_replicate, Nat.zero_add]

/-! ## Counting in a word -/

/-- A pacing that has counted attempts, where it counts at all. -/
structure Counted (p : Pacing) (every : UInt32) (count : Nat) : Prop where
  every_eq : p.every = every
  calls_eq : every ≤ 1 ∨ p.calls = UInt32.ofNat count

variable {p : Pacing} {every : UInt32} {count : Nat}

theorem counted_ofEvery (every : UInt32) : (ofEvery every).Counted every 0 := ⟨rfl, .inr rfl⟩

theorem Counted.call (h : p.Counted every count) (call : Call) :
    (p.call call).Counted every (countAfter count call) := by
  obtain ⟨rfl, hcalls⟩ := h
  cases call with
  | attempt =>
      obtain ⟨hevery, hnext⟩ := attempt_snd_eq hcalls
      exact ⟨hevery, hnext⟩
  | reset => exact ⟨rfl, .inr rfl⟩

theorem Counted.after (h : p.Counted every count) (calls : List Call) :
    (p.after calls).Counted every (calls.foldl countAfter count) := by
  induction calls generalizing p count with
  | nil => exact h
  | cons call rest ih => exact ih (h.call call)

theorem Counted.attempt_fst (h : p.Counted every count) :
    p.attempt.1 = true ↔ every ≤ 1 ∨ (count + 1) % UInt32.size % every.toNat = 1 := by
  obtain ⟨rfl, hevery | hcalls⟩ := h
  · exact iff_of_true (by rw [attempt, if_pos hevery]) (.inl hevery)
  · exact attempt_fst_eq_true_iff hcalls

/-- The number of an attempt is read modulo the values of a word. -/
theorem permits_iff (every : UInt32) (calls : List Call) :
    permits every calls = true ↔
      every ≤ 1 ∨ (attemptsIn calls + 1) % UInt32.size % every.toNat = 1 :=
  ((counted_ofEvery every).after calls).attempt_fst

/-! ## The rhythm -/

/-- The next attempt is permitted exactly if it is the first of a period. -/
def InRhythm (every : UInt32) (calls : List Call) : Prop :=
  permits every calls = true ↔ every ≤ 1 ∨ (attemptsIn calls + 1) % every.toNat = 1

/-- The attempt behind a whole round of the word is taken for the first one. -/
theorem inRhythm_replicate_size_iff {every : UInt32} (h : ¬every ≤ 1) :
    InRhythm every (List.replicate UInt32.size .attempt) ↔ every.toNat ∣ UInt32.size := by
  have hone : 1 % every.toNat = 1 := Nat.mod_eq_of_lt (@one_lt_of_not_le (ofEvery every) h)
  have hround : (UInt32.size + 1) % UInt32.size % every.toNat = 1 := by
    rw [Nat.add_mod_left, Nat.mod_eq_of_lt (by decide : 1 < UInt32.size), hone]
  have hdue : (UInt32.size + 1) % every.toNat = 1 ↔ every.toNat ∣ UInt32.size := by
    constructor
    · intro hmod
      exact Nat.dvd_of_mod_eq_zero (Nat.sub_mod_eq_zero_of_mod_eq (hmod.trans hone.symm))
    · intro hdvd
      rw [Nat.add_mod, Nat.mod_eq_zero_of_dvd hdvd, Nat.zero_add, Nat.mod_mod, hone]
  rw [InRhythm, permits_iff, attemptsIn_replicate, or_iff_right h, or_iff_right h, hdue]
  exact iff_true_left hround

/-- The rhythm is right for all attempts that the word can number, and it is right for ever exactly
if every attempt is permitted or a round of the word holds a whole number of periods. -/
theorem rhythm_kept_iff_dvd (every : UInt32) :
    (∀ calls, permits every calls = true ↔
      every ≤ 1 ∨ (attemptsIn calls + 1) % UInt32.size % every.toNat = 1) ∧
    (∀ calls, attemptsIn calls + 1 < UInt32.size → InRhythm every calls) ∧
    ((∀ calls, InRhythm every calls) ↔ every ≤ 1 ∨ every.toNat ∣ UInt32.size) := by
  refine ⟨permits_iff every, fun calls hsmall => ?_, fun hkept => ?_, fun hwhole calls => ?_⟩
  · rw [InRhythm, permits_iff, Nat.mod_eq_of_lt hsmall]
  · by_cases hevery : every ≤ 1
    · exact .inl hevery
    · exact .inr ((inRhythm_replicate_size_iff hevery).mp (hkept _))
  · rw [InRhythm, permits_iff]
    rcases hwhole with hevery | hdvd
    · exact iff_of_true (.inl hevery) (.inl hevery)
    · rw [Nat.mod_mod_of_dvd _ hdvd]

/-- With one attempt in three, the one that ends a round of the word is the first of a period, and
it is declined. -/
theorem rhythm_lost_at_end_of_round :
    let calls := List.replicate (UInt32.size - 1) Call.attempt
    attemptsIn calls + 1 = UInt32.size ∧ (attemptsIn calls + 1) % 3 = 1 ∧
      permits 3 calls = false := by
  intro calls
  have hcount : attemptsIn calls + 1 = UInt32.size := by
    rw [attemptsIn_replicate]
    rfl
  refine ⟨hcount, by rw [hcount]; rfl, ?_⟩
  rw [Bool.eq_false_iff, Ne, permits_iff, hcount]
  decide

end Pacing

end CabinetBus
