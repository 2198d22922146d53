-- SUMMARY: One pool that lends buffers and takes buffers back: what it counts, keeps, makes and lets go.
import Mathlib.Data.List.Induction
import Mathlib.Data.UInt
import Mathlib.Order.Bounds.Lattice
import Mathlib.Tactic.Abel
import CabinetBus.Service.BufferPool

/-!
# Runs of a pool

A pool lends buffers and takes buffers back, be they its own or not. Whatever comes back, the
count of buffers in use is what was lent less what came back, idle buffers are empty and never more
than the pool may keep, and no buffer appears or disappears but those that are made for a loan and
those that are let go. A pool that takes back no more than it lent, and never has more out than it
may keep, lets none go and makes only as many as were ever out at once.
-/

namespace CabinetBus

/-! ## Events -/

/-- What happens to a pool. -/
inductive PoolEvent where
  | lends
  | takesBack (b : MessageBuffer)
  | rests
  deriving DecidableEq, Repr

namespace PoolEvent

def isLoan : PoolEvent → Bool
  | lends => true
  | takesBack _ | rests => false

def isReturn : PoolEvent → Bool
  | takesBack _ => true
  | lends | rests => false

/-- How many buffers were lent. -/
def lent (events : List PoolEvent) : Nat := events.countP isLoan

/-- How many buffers came back. -/
def returned (events : List PoolEvent) : Nat := events.countP isReturn

/-- How many buffers were lent and did not come back. -/
def outstanding (events : List PoolEvent) : Nat := lent events - returned events

/-- How many buffers were outstanding at some time. -/
def levels (events : List PoolEvent) : Set Nat :=
  {level | ∃ front, front <+: events ∧ level = outstanding front}

@[simp] theorem lent_cons (e : PoolEvent) (later : List PoolEvent) :
    lent (e :: later) = (if e.isLoan then 1 else 0) + lent later := by
  rw [lent, List.countP_cons, Nat.add_comm, lent]

@[simp] theorem returned_cons (e : PoolEvent) (later : List PoolEvent) :
    returned (e :: later) = (if e.isReturn then 1 else 0) + returned later := by
  rw [returned, List.countP_cons, Nat.add_comm, returned]

@[simp] theorem lent_concat (events : List PoolEvent) (e : PoolEvent) :
    lent (events ++ [e]) = lent events + if e.isLoan then 1 else 0 := by
  rw [lent, List.countP_append, List.countP_singleton, lent]

@[simp] theorem returned_concat (events : List PoolEvent) (e : PoolEvent) :
    returned (events ++ [e]) = returned events + if e.isReturn then 1 else 0 := by
  rw [returned, List.countP_append, List.countP_singleton, returned]

theorem levels_nil : levels [] = {0} := by
  ext level
  simp [levels, outstanding, lent, returned]

theorem levels_concat (events : List PoolEvent) (e : PoolEvent) :
    levels (events ++ [e]) = insert (outstanding (events ++ [e])) (levels events) := by
  ext level
  constructor
  · rintro ⟨front, hfront, rfl⟩
    rcases List.prefix_concat_iff.mp hfront with rfl | hbefore
    · exact .inl rfl
    · exact .inr ⟨front, hbefore, rfl⟩
  · rintro (rfl | ⟨front, hfront, rfl⟩)
    · exact ⟨_, List.prefix_refl _, rfl⟩
    · exact ⟨front, hfront.trans (List.prefix_append _ _), rfl⟩

end PoolEvent

namespace BufferPool

open PoolEvent

/-! ## Runs -/

def undergo (p : BufferPool) : PoolEvent → BufferPool
  | .lends => p.acquire.2
  | .takesBack b => p.release b
  | .rests => p

/-- The pool behind events in order. -/
def undergoAll (p : BufferPool) (events : List PoolEvent) : BufferPool := events.foldl undergo p

@[simp] theorem undergoAll_nil (p : BufferPool) : p.undergoAll [] = p := rfl

@[simp] theorem undergoAll_cons (p : BufferPool) (e : PoolEvent) (later : List PoolEvent) :
    p.undergoAll (e :: later) = (p.undergo e).undergoAll later := rfl

theorem undergoAll_concat (p : BufferPool) (events : List PoolEvent) (e : PoolEvent) :
    p.undergoAll (events ++ [e]) = (p.undergoAll events).undergo e := by
  rw [undergoAll, List.foldl_append]
  rfl

theorem undergoAll_induction {motive : BufferPool → Prop}
    (step : ∀ p e, motive p → motive (p.undergo e)) {p : BufferPool} (h : motive p)
    (events : List PoolEvent) : motive (p.undergoAll events) := by
  induction events generalizing p with
  | nil => exact h
  | cons e later ih => exact ih (step p e h)

@[simp] theorem maxFree_undergo (p : BufferPool) (e : PoolEvent) :
    (p.undergo e).maxFree = p.maxFree := by
  cases e with
  | lends =>
      rw [undergo, acquire]
      split <;> rfl
  | takesBack | rests => rfl

@[simp] theorem maxFree_undergoAll (p : BufferPool) (events : List PoolEvent) :
    (p.undergoAll events).maxFree = p.maxFree :=
  undergoAll_induction (motive := fun q => q.maxFree = p.maxFree)
    (fun q e h => (maxFree_undergo q e).trans h) rfl events

/-! ## Idle buffers -/

/-- No idle buffer holds anything. -/
def IsClean (p : BufferPool) : Prop := ∀ b ∈ p.free, b.length = 0

theorem IsClean.undergo {p : BufferPool} (h : p.IsClean) (e : PoolEvent) :
    (p.undergo e).IsClean := by
  cases e with
  | rests => exact h
  | lends =>
      rw [BufferPool.undergo, acquire]
      split
      · exact h
      · next first rest hfree =>
          intro b hb
          exact h b (hfree ▸ List.mem_cons_of_mem first hb)
  | takesBack returned =>
      intro b hb
      simp only [BufferPool.undergo, release] at hb
      split at hb
      · rcases List.mem_append.mp hb with hb | hb
        · exact h b hb
        · rw [List.mem_singleton.mp hb]
          rfl
      · exact h b hb

/-- A pool without used buffers lends empty ones only. -/
theorem IsClean.length_acquire {p : BufferPool} (h : p.IsClean) : p.acquire.1.length = 0 := by
  rw [acquire]
  split
  · rfl
  · next first rest hfree => exact h first (hfree ▸ List.mem_cons_self)

/-- A pool keeps within its bound. -/
theorem available_undergo_le {p : BufferPool} (h : p.available ≤ p.maxFree) (e : PoolEvent) :
    (p.undergo e).available ≤ (p.undergo e).maxFree := by
  rw [maxFree_undergo]
  cases e with
  | lends =>
      rw [undergo, available_acquire]
      exact (Nat.sub_le _ _).trans h
  | takesBack b =>
      rw [undergo, available_release]
      split
      · assumption
      · exact h
  | rests => exact h

/-! ## Accounts -/

/-- What is in use is what was lent less what came back, modulo `2 ^ 64`. -/
theorem inUse_undergoAll (p : BufferPool) (events : List PoolEvent) :
    (p.undergoAll events).inUse =
      p.inUse + UInt64.ofNat (lent events) - UInt64.ofNat (PoolEvent.returned events) := by
  induction events generalizing p with
  | nil => simp [lent, PoolEvent.returned]
  | cons e later ih =>
      rw [undergoAll_cons, ih, lent_cons, returned_cons, UInt64.ofNat_add, UInt64.ofNat_add]
      let out := UInt64.ofNat (lent later)
      let back := UInt64.ofNat (PoolEvent.returned later)
      cases e with
      | lends =>
          rw [undergo, inUse_acquire]
          change p.inUse + 1 + out - back = p.inUse + (1 + out) - (0 + back)
          abel
      | takesBack b =>
          rw [undergo, inUse_release]
          change p.inUse - 1 + out - back = p.inUse + (0 + out) - (1 + back)
          abel
      | rests =>
          change p.inUse + out - back = p.inUse + (0 + out) - (0 + back)
          abel

/-- A pool lends the buffer that has been idle for longest, as it is, and a new one only if none is
idle. -/
theorem acquire_cases (p : BufferPool) :
    p.free = p.acquire.1 :: p.acquire.2.free ∨
      p.free = [] ∧ p.acquire.2.free = [] ∧ p.acquire.1 = .new := by
  rw [acquire]
  split
  · next hfree => exact .inr ⟨hfree, hfree, rfl⟩
  · next hfree => exact .inl hfree

/-- Whether a pool makes a buffer for a loan, instead of lending the one that has been idle for
longest and keeping the others. -/
def makes (p : BufferPool) : PoolEvent → Bool
  | .lends => p.free ≠ p.acquire.1 :: p.acquire.2.free
  | .takesBack _ | .rests => false

/-- Whether a pool lets a buffer go that came back, instead of keeping it behind the others. -/
def drops (p : BufferPool) : PoolEvent → Bool
  | .takesBack b => (p.release b).free ≠ p.free ++ [b.truncate]
  | .lends | .rests => false

/-- A buffer is made only when none is idle. -/
theorem makes_iff {p : BufferPool} {e : PoolEvent} :
    p.makes e = true ↔ e.isLoan = true ∧ p.available = 0 := by
  cases e with
  | takesBack | rests => simp [makes, isLoan]
  | lends =>
      rw [makes, acquire, available]
      cases p.free <;> simp [isLoan]

/-- A buffer is let go only when the pool is full. -/
theorem drops_iff {p : BufferPool} {e : PoolEvent} :
    p.drops e = true ↔ e.isReturn = true ∧ p.maxFree ≤ p.available := by
  cases e with
  | lends | rests => simp [drops, isReturn]
  | takesBack b =>
      rw [drops, release, available]
      by_cases hroom : p.free.length < p.maxFree
      · simp [hroom, isReturn]
      · simp [hroom, isReturn, Nat.le_of_not_lt hroom]

/-- How many buffers were made. -/
def made (p : BufferPool) : List PoolEvent → Nat
  | [] => 0
  | e :: later => (if p.makes e then 1 else 0) + (p.undergo e).made later

/-- How many buffers were let go. -/
def letGo (p : BufferPool) : List PoolEvent → Nat
  | [] => 0
  | e :: later => (if p.drops e then 1 else 0) + (p.undergo e).letGo later

theorem letGo_concat (p : BufferPool) (events : List PoolEvent) (e : PoolEvent) :
    p.letGo (events ++ [e]) = p.letGo events + if (p.undergoAll events).drops e then 1 else 0 := by
  induction events generalizing p with
  | nil => exact Nat.add_comm _ 0
  | cons first later ih => rw [List.cons_append, letGo, ih, letGo, undergoAll_cons, Nat.add_assoc]

/-- Buffers are lent and let go that were idle, made, or came back. -/
theorem available_undergoAll (p : BufferPool) (events : List PoolEvent) :
    (p.undergoAll events).available + lent events + p.letGo events =
      p.available + p.made events + PoolEvent.returned events := by
  induction events generalizing p with
  | nil => simp [lent, PoolEvent.returned, made, letGo]
  | cons e later ih =>
      have hlater := ih (p.undergo e)
      rw [undergoAll_cons, lent_cons, returned_cons, made, letGo]
      simp only [makes_iff, drops_iff]
      cases e with
      | lends =>
          simp only [undergo, available_acquire] at hlater
          simp only [undergo, isLoan, isReturn, if_true, true_and, Bool.false_eq_true, false_and,
            if_false]
          split <;> omega
      | takesBack b =>
          simp only [undergo, available_release] at hlater
          simp only [undergo, isLoan, isReturn, if_true, true_and, Bool.false_eq_true, false_and,
            if_false]
          split at hlater <;> split <;> omega
      | rests =>
          simp only [undergo] at hlater
          simp only [undergo, isLoan, isReturn, Bool.false_eq_true, false_and, if_false]
          omega

/-! ## Thrift -/

/-- A pool takes back no more than it lent, and never has more out than it may keep. -/
def Contained (p : BufferPool) (events : List PoolEvent) : Prop :=
  ∀ front, front <+: events →
    PoolEvent.returned front ≤ lent front ∧ outstanding front ≤ p.maxFree

theorem Contained.of_concat {p : BufferPool} {events : List PoolEvent} {e : PoolEvent}
    (h : p.Contained (events ++ [e])) : p.Contained events :=
  fun front hfront => h front (hfront.trans (List.prefix_append _ _))

/-- The idle buffers and those out together are as many as were ever out at once. -/
theorem isGreatest_levels {p : BufferPool} (hfresh : p.available = 0) {events : List PoolEvent}
    (h : p.Contained events) :
    IsGreatest (levels events) (outstanding events + (p.undergoAll events).available) := by
  induction events using List.reverseRecOn with
  | nil =>
      rw [levels_nil, undergoAll_nil, hfresh]
      exact isGreatest_singleton
  | append_singleton events e ih =>
      have hpeak := ih h.of_concat
      -- The highest level is one that was reached, so it lies within the bound.
      obtain ⟨front, hfront, hlevel⟩ := hpeak.1
      have hbound := (h.of_concat front hfront).2
      have hbefore := (h.of_concat events (List.prefix_refl _)).1
      have hafter := (h (events ++ [e]) (List.prefix_refl _)).1
      rw [levels_concat, undergoAll_concat]
      have hinsert := hpeak.insert (outstanding (events ++ [e]))
      suffices hsum : outstanding (events ++ [e]) + ((p.undergoAll events).undergo e).available =
          max (outstanding (events ++ [e]))
            (outstanding events + (p.undergoAll events).available) by
        rwa [hsum]
      rw [lent_concat, returned_concat] at hafter
      simp only [outstanding, lent_concat, returned_concat] at hlevel hbound ⊢
      cases e with
      | lends =>
          simp only [undergo, available_acquire, isLoan, isReturn, if_true, Bool.false_eq_true,
            if_false]
          omega
      | takesBack b =>
          simp only [undergo, available_release, maxFree_undergoAll]
          simp only [isLoan, isReturn, if_true, Bool.false_eq_true, if_false] at hafter ⊢
          split <;> omega
      | rests =>
          simp only [undergo, isLoan, isReturn, Bool.false_eq_true, if_false]
          omega

theorem letGo_eq_zero {p : BufferPool} (hfresh : p.available = 0) {events : List PoolEvent}
    (h : p.Contained events) : p.letGo events = 0 := by
  induction events using List.reverseRecOn with
  | nil => rfl
  | append_singleton events e ih =>
      obtain ⟨front, hfront, hlevel⟩ := (isGreatest_levels hfresh h.of_concat).1
      have hbound := (h.of_concat front hfront).2
      have hafter := (h (events ++ [e]) (List.prefix_refl _)).1
      rw [letGo_concat, ih h.of_concat, Nat.zero_add, if_neg]
      intro hdrops
      obtain ⟨hreturn, hfull⟩ := drops_iff.mp hdrops
      rw [maxFree_undergoAll] at hfull
      have hloan : e.isLoan = false := by
        cases e with
        | takesBack | rests => rfl
        | lends => cases hreturn
      rw [lent_concat, returned_concat, hreturn, hloan] at hafter
      simp only [outstanding, if_true, Bool.false_eq_true, if_false] at hlevel hbound hafter
      omega

/-- Buffers are made only when a new height is reached. -/
theorem made_eq {p : BufferPool} (hfresh : p.available = 0) {events : List PoolEvent}
    (h : p.Contained events) :
    p.made events = outstanding events + (p.undergoAll events).available := by
  have hlaw := available_undergoAll p events
  have hback := (h events (List.prefix_refl _)).1
  rw [letGo_eq_zero hfresh h, hfresh] at hlaw
  rw [outstanding]
  omega

end BufferPool

end CabinetBus
