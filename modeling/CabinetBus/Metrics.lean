-- SUMMARY: Wrapping 64-bit counters of the link and the time of their latest update.
import CabinetBus.Time.Timestamp

/-! # Metrics

A tally gives every counter a 64-bit word that wraps. Metrics add the latest of
the times at which anything was counted, whichever counter it was and in whatever
order the counts came in. -/

namespace CabinetBus

inductive Counter where
  | writesEnqueued
  | writesEnqueuedBytes
  | writesDequeued
  | writesDequeuedBytes
  | writesSucceeded
  | writesSucceededBytes
  | writesFailed
  | writesFailedBytes
  | writesOmitted
  | writesOmittedBytes
  | writesQueueFull
  | writesQueueFullBytes
  | reads
  | readBytes
  | assemblerOverflows
  | pops
  | decodeErrors
  | decodeErrorBytes
  | unknownIdentifiers
  | staticStatusRequests
  | staticStatusResponses
  | connects
  | disconnects
  deriving DecidableEq, Repr

namespace Counter

/-- Every counter, in the order of reports. -/
def all : List Counter :=
  [writesEnqueued, writesEnqueuedBytes, writesDequeued, writesDequeuedBytes, writesSucceeded,
   writesSucceededBytes, writesFailed, writesFailedBytes, writesOmitted, writesOmittedBytes,
   writesQueueFull, writesQueueFullBytes, reads, readBytes, assemblerOverflows, pops,
   decodeErrors, decodeErrorBytes, unknownIdentifiers, staticStatusRequests,
   staticStatusResponses, connects, disconnects]

def name : Counter → String
  | writesEnqueued => "WritesEnqueued"
  | writesEnqueuedBytes => "WritesEnqueuedBytes"
  | writesDequeued => "WritesDequeued"
  | writesDequeuedBytes => "WritesDequeuedBytes"
  | writesSucceeded => "WritesSucceeded"
  | writesSucceededBytes => "WritesSucceededBytes"
  | writesFailed => "WritesFailed"
  | writesFailedBytes => "WritesFailedBytes"
  | writesOmitted => "WritesOmitted"
  | writesOmittedBytes => "WritesOmittedBytes"
  | writesQueueFull => "WritesQueueFull"
  | writesQueueFullBytes => "WritesQueueFullBytes"
  | reads => "Reads"
  | readBytes => "ReadBytes"
  | assemblerOverflows => "AssemblerOverflows"
  | pops => "Pops"
  | decodeErrors => "DecodeErrors"
  | decodeErrorBytes => "DecodeErrorBytes"
  | unknownIdentifiers => "UnknownIdentifiers"
  | staticStatusRequests => "StaticStatusRequests"
  | staticStatusResponses => "StaticStatusResponses"
  | connects => "Connects"
  | disconnects => "Disconnects"

/-- The place of a counter in the order of reports. -/
def place (counter : Counter) : Fin all.length :=
  ⟨all.idxOf counter, by cases counter <;> decide⟩

/-! ### Laws -/

theorem mem_all (counter : Counter) : counter ∈ all := by
  cases counter <;> decide

theorem get_place (counter : Counter) : all.get counter.place = counter := by
  cases counter <;> rfl

theorem place_get (i : Fin all.length) : (all.get i).place = i := by
  revert i
  decide

theorem place_inj {a b : Counter} : a.place = b.place ↔ a = b :=
  ⟨fun h => by rw [← get_place a, h, get_place], congrArg place⟩

end Counter

/-! ## Tallies -/

/-- A count for every counter, in the order of reports. -/
structure Tally where
  counts : Vector UInt64 Counter.all.length
  deriving DecidableEq, Repr

namespace Tally

def zero : Tally := ⟨.replicate _ 0⟩

def count (t : Tally) (counter : Counter) : UInt64 := t.counts.get counter.place

def add (t : Tally) (counter : Counter) (value : UInt64) : Tally :=
  ⟨t.counts.set counter.place (t.count counter + value)⟩

def increment (t : Tally) (counter : Counter) : Tally := t.add counter 1

/-- Counts one message and its bytes. -/
def addMessage (t : Tally) (messages bytes : Counter) (length : Nat) : Tally :=
  (t.increment messages).add bytes (UInt64.ofNat length)

/-- The counters that are not zero, in the order of reports. -/
def snapshot (t : Tally) : List (Counter × UInt64) :=
  (Counter.all.map fun c => (c, t.count c)).filter fun entry => entry.2 != 0

/-! ### Laws -/

theorem count_eq (t : Tally) (counter : Counter) :
    t.count counter = t.counts[counter.place.val] := rfl

@[simp] theorem count_zero (counter : Counter) : zero.count counter = 0 := by
  simp [zero, count_eq]

theorem count_add (t : Tally) (counter : Counter) (value : UInt64) (c : Counter) :
    (t.add counter value).count c = if c = counter then t.count c + value else t.count c := by
  rw [count_eq, add, Vector.getElem_set]
  by_cases h : c = counter
  · rw [if_pos (by rw [h]), if_pos h, h]
  · rw [if_neg (by rwa [Fin.val_inj, Counter.place_inj, eq_comm]), if_neg h, count_eq]

/-- Counting a message moves two counters and no other. -/
theorem count_addMessage_of_ne (t : Tally) {messages bytes c : Counter} (length : Nat)
    (hmessages : c ≠ messages) (hbytes : c ≠ bytes) :
    (t.addMessage messages bytes length).count c = t.count c := by
  rw [addMessage, increment, count_add, if_neg hbytes, count_add, if_neg hmessages]

theorem mem_snapshot_iff {t : Tally} {counter : Counter} {value : UInt64} :
    (counter, value) ∈ t.snapshot ↔ t.count counter = value ∧ value ≠ 0 := by
  simp [snapshot, Counter.mem_all]

/-- Two tallies with the same counts are the same. -/
theorem ext_count {t u : Tally} (h : ∀ counter, t.count counter = u.count counter) : t = u := by
  obtain ⟨t⟩ := t
  obtain ⟨u⟩ := u
  congr 1
  apply Vector.ext
  intro i hi
  have heq := h (Counter.all.get ⟨i, hi⟩)
  rwa [count, count, Counter.place_get] at heq

end Tally

/-! ## Metrics -/

structure Metrics where
  tally : Tally
  lastUpdate : Option Timestamp

namespace Metrics

def zero : Metrics := ⟨.zero, none⟩

/-- Counts `value` at a given time. -/
def add (m : Metrics) (counter : Counter) (value : UInt64) (time : Timestamp) : Metrics :=
  { tally := m.tally.add counter value
    lastUpdate := match m.lastUpdate with
      | none => some time
      | some last => if last.before time then some time else some last }

def get (m : Metrics) (counter : Counter) : UInt64 := m.tally.count counter

def snapshot (m : Metrics) : List (Counter × UInt64) := m.tally.snapshot

end Metrics

end CabinetBus
