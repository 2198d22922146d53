-- SUMMARY: Pacing of reconnect attempts by counting calls.

/-! # Pacing

Of the calls since the last reset the first is permitted, and then every `every`-th
after it. The count is a 32-bit word and starts over when it runs out of values. -/

namespace CabinetBus

structure Pacing where
  every : UInt32
  calls : UInt32
  deriving DecidableEq, Repr

namespace Pacing

def defaultEvery : UInt32 := 3

def ofEvery (every : UInt32) : Pacing := ⟨every, 0⟩

/-- Counts a call and says whether it is permitted. Where every call is, none is counted. -/
def attempt (p : Pacing) : Bool × Pacing :=
  if p.every ≤ 1 then (true, p)
  else
    let calls := p.calls + 1
    (calls % p.every == 1, { p with calls })

/-- The next call is permitted. -/
def reset (p : Pacing) : Pacing := { p with calls := 0 }

/-! ## Runs of calls -/

/-- The verdicts on `count` calls in a row. -/
def attempts : Nat → Pacing → List Bool × Pacing
  | 0, p => ([], p)
  | count + 1, p =>
      let (permitted, next) := p.attempt
      let (later, last) := attempts count next
      (permitted :: later, last)

/-- The first multiple of `step` from `count` on. -/
def multipleFrom (count step : Nat) : Nat := (count + step - 1) / step * step

/-- Lets every call that is declined from now on pass by. The next permitted call is
the one after a multiple of `every`, or after the count has started over. -/
def waitOut (p : Pacing) : Pacing :=
  if p.every ≤ 1 then p
  else
    let due := multipleFrom p.calls.toNat p.every.toNat
    { p with calls := if due + 1 < UInt32.size then UInt32.ofNat due else 0 }

/-! ## Laws -/

theorem multipleFrom_mul (step k : Nat) (h : 0 < step) :
    multipleFrom (step * k) step = step * k := by
  rw [multipleFrom, Nat.add_sub_assoc (by omega), Nat.mul_add_div h,
    Nat.div_eq_of_lt (by omega), Nat.add_zero, Nat.mul_comm]

/-- From between two multiples it is the later one. -/
theorem multipleFrom_add {step k r : Nat} (hpos : 0 < r) (hlt : r ≤ step) :
    multipleFrom (step * k + r) step = step * (k + 1) := by
  have hsum : step * k + r + step - 1 = step * (k + 1) + (r - 1) := by
    rw [Nat.mul_succ]; omega
  rw [multipleFrom, hsum, Nat.mul_add_div (by omega), Nat.div_eq_of_lt (by omega), Nat.add_zero,
    Nat.mul_comm]

/-- Past a multiple the next one stays the same. -/
theorem multipleFrom_succ {count step : Nat} (hstep : 0 < step) (h : count % step ≠ 0) :
    multipleFrom (count + 1) step = multipleFrom count step := by
  have hlt := Nat.mod_lt count hstep
  conv => lhs; rw [← Nat.div_add_mod count step, Nat.add_assoc]
  conv => rhs; rw [← Nat.div_add_mod count step]
  rw [multipleFrom_add (by omega) (by omega), multipleFrom_add (by omega) (by omega)]

theorem le_multipleFrom {count step : Nat} (h : 0 < step) :
    count ≤ multipleFrom count step := by
  have hsum := Nat.div_add_mod (count + step - 1) step
  have hlt := Nat.mod_lt (count + step - 1) h
  rw [multipleFrom, Nat.mul_comm]
  omega

theorem one_lt_of_not_le {p : Pacing} (h : ¬p.every ≤ 1) : 1 < p.every.toNat := by
  rw [UInt32.le_iff_toNat_le] at h
  simpa using h

theorem attempt_snd {p : Pacing} (h : ¬p.every ≤ 1) :
    p.attempt.2 = { p with calls := p.calls + 1 } := by
  simp [attempt, h]

/-- The verdict on a call, by the count before it. -/
theorem attempt_fst_iff {p : Pacing} (h : ¬p.every ≤ 1) :
    p.attempt.1 = true ↔
      p.calls.toNat + 1 < UInt32.size ∧ p.calls.toNat % p.every.toNat = 0 := by
  have hevery := one_lt_of_not_le h
  have hcalls : p.calls.toNat < UInt32.size := p.calls.toNat_lt_size
  have hsum : (p.calls + 1).toNat = (p.calls.toNat + 1) % UInt32.size := by
    simp [UInt32.toNat_add, UInt32.size]
  simp only [attempt, if_neg h, beq_iff_eq, ← UInt32.toNat_inj, UInt32.toNat_mod, hsum]
  change _ % _ % _ = 1 ↔ _
  by_cases hlast : p.calls.toNat + 1 < UInt32.size
  · have hmod := Nat.mod_lt p.calls.toNat (by omega : 0 < p.every.toNat)
    rw [Nat.mod_eq_of_lt hlast, Nat.add_mod, Nat.mod_eq_of_lt hevery]
    by_cases hwrap : p.calls.toNat % p.every.toNat + 1 < p.every.toNat
    · rw [Nat.mod_eq_of_lt hwrap]
      omega
    · have heq : p.calls.toNat % p.every.toNat + 1 = p.every.toNat := by omega
      rw [heq, Nat.mod_self]
      omega
  · have heq : p.calls.toNat + 1 = UInt32.size := by omega
    rw [heq, Nat.mod_self, Nat.zero_mod]
    simp

/-- The first call is permitted. -/
theorem attempt_ofEvery (every : UInt32) : (ofEvery every).attempt.1 = true := by
  by_cases hevery : every ≤ 1
  · simp [attempt, ofEvery, hevery]
  · exact (attempt_fst_iff hevery).mpr ⟨show 0 + 1 < UInt32.size by decide, Nat.zero_mod _⟩

@[simp] theorem every_waitOut (p : Pacing) : p.waitOut.every = p.every := by
  unfold waitOut
  split <;> rfl

theorem toNat_calls_waitOut {p : Pacing} (h : ¬p.every ≤ 1) :
    p.waitOut.calls.toNat =
      if multipleFrom p.calls.toNat p.every.toNat + 1 < UInt32.size
      then multipleFrom p.calls.toNat p.every.toNat else 0 := by
  rw [waitOut, if_neg h]
  dsimp only
  split
  · exact UInt32.toNat_ofNat_of_lt' (by omega)
  · rfl

/-- After the wait the next call is permitted. -/
theorem attempt_waitOut (p : Pacing) : p.waitOut.attempt.1 = true := by
  by_cases h : p.every ≤ 1
  · simp [waitOut, attempt, h]
  · rw [attempt_fst_iff (by rwa [every_waitOut]), every_waitOut, toNat_calls_waitOut h]
    split
    · rename_i hdue
      exact ⟨hdue, by rw [multipleFrom, Nat.mul_mod_left]⟩
    · simp [UInt32.size]

/-- There is nothing to wait for if the next call is permitted. -/
theorem waitOut_of_permitted {p : Pacing} (h : p.attempt.1 = true) : p.waitOut = p := by
  by_cases hevery : p.every ≤ 1
  · simp [waitOut, hevery]
  · obtain ⟨hlast, hmod⟩ := (attempt_fst_iff hevery).1 h
    have hpos := one_lt_of_not_le hevery
    have hdue : multipleFrom p.calls.toNat p.every.toNat = p.calls.toNat := by
      conv => lhs; rw [← Nat.div_add_mod p.calls.toNat p.every.toNat, hmod, Nat.add_zero]
      rw [multipleFrom_mul _ _ (by omega)]
      exact Nat.mul_div_cancel' (Nat.dvd_of_mod_eq_zero hmod)
    simp [waitOut, hevery, hdue, hlast]

/-- A declined call is a part of the wait. -/
theorem waitOut_of_declined {p : Pacing} (h : p.attempt.1 = false) :
    p.attempt.2.waitOut = p.waitOut := by
  by_cases hevery : p.every ≤ 1
  · simp [attempt, hevery] at h
  · have hpos := one_lt_of_not_le hevery
    have hdeclined := mt (attempt_fst_iff hevery).2 (by simp [h])
    have hcalls : p.calls.toNat < UInt32.size := p.calls.toNat_lt_size
    have hsum : (p.calls + 1).toNat = (p.calls.toNat + 1) % UInt32.size := by
      simp [UInt32.toNat_add, UInt32.size]
    rw [attempt_snd hevery, waitOut, waitOut, if_neg hevery, if_neg hevery]
    simp only [hsum]
    by_cases hlast : p.calls.toNat + 1 < UInt32.size
    · rw [Nat.mod_eq_of_lt hlast, multipleFrom_succ (by omega)
        fun hmod => hdeclined ⟨hlast, hmod⟩]
    · have hdue := @le_multipleFrom p.calls.toNat p.every.toNat (by omega)
      have hwrap : p.calls.toNat + 1 = UInt32.size := by omega
      have hzero := multipleFrom_mul p.every.toNat 0 (by omega)
      rw [Nat.mul_zero] at hzero
      have hlate : ¬multipleFrom p.calls.toNat p.every.toNat + 1 < UInt32.size := by omega
      rw [hwrap, Nat.mod_self, hzero, if_neg hlate]
      rfl

end Pacing

end CabinetBus
