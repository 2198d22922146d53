-- SUMMARY: Counts that come in any order: what the metrics show of them, and that the order is not seen.
import Mathlib.Data.List.Perm.Basic
import Mathlib.Data.Prod.Lex
import Mathlib.Data.UInt
import CabinetBus.Metrics

/-!
# Counts in any order

Instants are ordered by their seconds and, in one second, by their nanoseconds, so that a leap
second lies between the second before it and the next. Two increments lead to the same metrics
whichever comes first, and so do all orders of a list of them. What the metrics show is told by the
increments alone: a counter holds the sum of what was added to it modulo `2 ^ 64`, the snapshot
lists the counters that do not hold zero, and the last update is the latest time of any of them.
-/

namespace CabinetBus

/-! ## The order of instants -/

namespace Timestamp

def key (t : Timestamp) : Int ×ₗ Nat := toLex (t.seconds, t.nanos)

theorem key_injective : Function.Injective key := by
  intro a b h
  cases a
  cases b
  simpa [key] using h

instance : LinearOrder Timestamp := LinearOrder.lift' key key_injective

theorem lt_iff {a b : Timestamp} :
    a < b ↔ a.seconds < b.seconds ∨ a.seconds = b.seconds ∧ a.nanos < b.nanos :=
  Prod.Lex.lt_iff

theorem before_iff {a b : Timestamp} : a.before b ↔ a < b := by
  simp [before, lt_iff]

end Timestamp

/-! ## Increments -/

/-- What is counted at one time. -/
structure Increment where
  counter : Counter
  value : UInt64
  time : Timestamp
  deriving DecidableEq, Repr

/-- The sum of what is added to a counter. -/
def Increment.total (c : Counter) (increments : List Increment) : Nat :=
  ((increments.filter (·.counter = c)).map (·.value.toNat)).sum

theorem Increment.total_cons (c : Counter) (i : Increment) (later : List Increment) :
    total c (i :: later) = (if c = i.counter then i.value.toNat else 0) + total c later := by
  by_cases h : c = i.counter
  · simp [total, h]
  · simp [total, h, Ne.symm h]

/-! ## Tallies -/

namespace Tally

theorem count_add_eq_add (t : Tally) (counter : Counter) (value : UInt64) (c : Counter) :
    (t.add counter value).count c = t.count c + if c = counter then value else 0 := by
  rw [count_add]
  split
  · rfl
  · rw [add_zero]

theorem add_add_comm (t : Tally) (a b : Counter) (v w : UInt64) :
    (t.add a v).add b w = (t.add b w).add a v := by
  apply ext_count
  intro c
  simp only [count_add_eq_add]
  exact add_right_comm ..

/-- A snapshot lists the counters in the order of their declaration. -/
theorem pairwise_snapshot (t : Tally) :
    t.snapshot.Pairwise fun a b => a.1.ctorIdx < b.1.ctorIdx := by
  have hall : Counter.all.Pairwise fun a b => a.ctorIdx < b.ctorIdx := by decide
  apply List.Pairwise.filter
  rw [List.pairwise_map]
  exact hall

end Tally

namespace Metrics

/-! ## Two increments -/

theorem lastUpdate_add (m : Metrics) (c : Counter) (v : UInt64) (t : Timestamp) :
    (m.add c v t).lastUpdate = some (m.lastUpdate.elim t (max · t)) := by
  cases hlast : m.lastUpdate with
  | none => simp [add, hlast]
  | some last =>
      by_cases h : last < t
      · simp [add, hlast, Timestamp.before_iff, h, max_eq_right h.le]
      · simp [add, hlast, Timestamp.before_iff, h, max_eq_left (not_lt.mp h)]

/-- Two increments lead to the same metrics in both orders. -/
theorem add_add_comm (m : Metrics) (a b : Increment) :
    (m.add a.counter a.value a.time).add b.counter b.value b.time =
      (m.add b.counter b.value b.time).add a.counter a.value a.time := by
  have hlast : ((m.add a.counter a.value a.time).add b.counter b.value b.time).lastUpdate =
      ((m.add b.counter b.value b.time).add a.counter a.value a.time).lastUpdate := by
    rw [lastUpdate_add, lastUpdate_add, lastUpdate_add, lastUpdate_add]
    cases m.lastUpdate with
    | none => exact congrArg some (max_comm _ _)
    | some last => exact congrArg some (max_right_comm _ _ _)
  exact congrArg₂ Metrics.mk (Tally.add_add_comm ..) hlast

/-! ## Any number of increments -/

/-- The metrics behind increments in order. -/
def addAll (m : Metrics) (increments : List Increment) : Metrics :=
  increments.foldl (fun m i => m.add i.counter i.value i.time) m

@[simp] theorem addAll_nil (m : Metrics) : m.addAll [] = m := rfl

@[simp] theorem addAll_cons (m : Metrics) (i : Increment) (later : List Increment) :
    m.addAll (i :: later) = (m.add i.counter i.value i.time).addAll later := rfl

theorem addAll_perm (m : Metrics) {increments reordered : List Increment}
    (h : reordered.Perm increments) : m.addAll reordered = m.addAll increments :=
  have : RightCommutative fun (m : Metrics) (i : Increment) => m.add i.counter i.value i.time :=
    ⟨add_add_comm⟩
  h.foldl_eq m

theorem get_addAll (m : Metrics) (increments : List Increment) (c : Counter) :
    (m.addAll increments).get c = m.get c + UInt64.ofNat (Increment.total c increments) := by
  induction increments generalizing m with
  | nil => simp [Increment.total]
  | cons i later ih =>
      have hadd : (m.add i.counter i.value i.time).get c =
          m.get c + if c = i.counter then i.value else 0 := Tally.count_add_eq_add ..
      rw [addAll_cons, ih, hadd, add_assoc, Increment.total_cons, UInt64.ofNat_add,
        apply_ite UInt64.ofNat, UInt64.ofNat_toNat]
      rfl

/-- The last update is the latest of the earlier one and the times of the increments. -/
theorem lastUpdate_addAll (m : Metrics) (increments : List Increment) :
    (m.addAll increments).lastUpdate =
      (m.lastUpdate.toList ++ increments.map (·.time)).max? := by
  -- The first increment goes over into the metrics, so these are arbitrary.
  induction increments generalizing m with
  | nil => cases hlast : m.lastUpdate <;> simp [hlast]
  | cons i later ih =>
      rw [addAll_cons, ih, lastUpdate_add]
      cases m.lastUpdate with
      | none => rfl
      | some last =>
          change (max last i.time :: later.map (·.time)).max? =
            (last :: i.time :: later.map (·.time)).max?
          rw [List.max?_cons', List.max?_cons', List.foldl_cons]

/-! ## Fresh metrics -/

theorem toNat_get_addAll_zero (increments : List Increment) (c : Counter) :
    ((zero.addAll increments).get c).toNat = Increment.total c increments % 2 ^ 64 := by
  have hzero : zero.get c = 0 := Tally.count_zero c
  rw [get_addAll, hzero, zero_add, UInt64.toNat_ofNat']

theorem mem_snapshot_addAll_zero_iff {increments : List Increment} {c : Counter}
    {value : UInt64} :
    (c, value) ∈ (zero.addAll increments).snapshot ↔
      value.toNat = Increment.total c increments % 2 ^ 64 ∧
        Increment.total c increments % 2 ^ 64 ≠ 0 := by
  have hzero (v : UInt64) : v.toNat = 0 ↔ v = 0 := by rw [← UInt64.toNat_inj, UInt64.toNat_zero]
  rw [snapshot, Tally.mem_snapshot_iff, ← toNat_get_addAll_zero, UInt64.toNat_inj, ne_eq, ne_eq,
    hzero, get]
  constructor <;> rintro ⟨rfl, hne⟩ <;> exact ⟨rfl, hne⟩

/-- However increments to fresh metrics are reordered, the metrics are the same. A counter holds the
sum of what was added to it modulo `2 ^ 64`. The snapshot lists the counters that do not hold zero,
once each and in the order of their declaration. The last update is the latest time of all, and
there is one unless nothing was counted. -/
theorem metrics_ignore_order (increments : List Increment) :
    let m := zero.addAll increments
    (∀ reordered : List Increment, reordered.Perm increments → zero.addAll reordered = m) ∧
    (∀ c, (m.get c).toNat = Increment.total c increments % 2 ^ 64) ∧
    (∀ c value, (c, value) ∈ m.snapshot ↔
      value.toNat = Increment.total c increments % 2 ^ 64 ∧
        Increment.total c increments % 2 ^ 64 ≠ 0) ∧
    m.snapshot.Pairwise (fun a b => a.1.ctorIdx < b.1.ctorIdx) ∧
    (m.lastUpdate = none ↔ increments = []) ∧
    ∀ last, m.lastUpdate = some last ↔
      (∃ i ∈ increments, i.time = last) ∧ ∀ i ∈ increments, i.time ≤ last := by
  intro m
  have hlast : m.lastUpdate = (increments.map (·.time)).max? := lastUpdate_addAll zero increments
  refine ⟨fun reordered h => addAll_perm zero h, toNat_get_addAll_zero increments,
    fun c value => mem_snapshot_addAll_zero_iff, Tally.pairwise_snapshot m.tally, ?_, ?_⟩
  · rw [hlast, List.max?_eq_none_iff, List.map_eq_nil_iff]
  · intro last
    rw [hlast, List.max?_eq_some_iff, List.mem_map, List.forall_mem_map]

/-- A counter that wraps back to zero, a stale time, an equal one and a leap second: backwards they
lead to the same metrics, in which the counter is not listed. -/
theorem metrics_ignore_order_wrapped :
    let leap : Timestamp := ⟨59, 1999999999⟩
    let next : Timestamp := ⟨60, 0⟩
    let increments : List Increment := [⟨.reads, 18446744073709551615, leap⟩, ⟨.pops, 5, next⟩,
      ⟨.reads, 1, leap⟩, ⟨.connects, 2, next⟩, ⟨.pops, 3, ⟨0, 0⟩⟩]
    increments.reverse.Perm increments ∧
      zero.addAll increments.reverse = zero.addAll increments ∧
      (zero.addAll increments).get .reads = 0 ∧
      (zero.addAll increments).snapshot = [(.pops, 8), (.connects, 2)] ∧
      (zero.addAll increments).lastUpdate = some next := by
  intro leap next increments
  have hperm : increments.reverse.Perm increments := List.reverse_perm increments
  obtain ⟨horder, hget, -, -, -, hlast⟩ := metrics_ignore_order increments
  have hreads : Increment.total .reads increments % 2 ^ 64 = 0 := by decide +kernel
  refine ⟨hperm, horder increments.reverse hperm, UInt64.toNat.inj ((hget .reads).trans hreads),
    by decide +kernel, ?_⟩
  exact (hlast next).mpr ⟨⟨⟨.pops, 5, next⟩, by decide, rfl⟩, by decide⟩

end Metrics

end CabinetBus
