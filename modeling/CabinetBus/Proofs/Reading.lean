-- SUMMARY: What a reading of consecutive fields gives, and its first failure, by the field widths.
import Mathlib.Algebra.GroupWithZero.Nat
import CabinetBus.Bytes.Cursor

/-!
# Readings of fields

A reading takes fields of known widths, one behind the other. If all of them lie before
the limit, its value depends on their bytes alone. If not, its failure is that of the first
field that does not, and a failed cursor stays as it is.
-/

namespace CabinetBus

namespace Bytes

theorem take_slice (buffer : Bytes) (start first second : Nat) :
    (slice buffer start (start + (first + second))).take first =
      slice buffer start (start + first) := by
  rw [slice, slice, List.take_drop, List.take_take]
  congr 2
  omega

theorem drop_slice (buffer : Bytes) (start first stop : Nat) :
    (slice buffer start stop).drop first = slice buffer (start + first) stop := by
  rw [slice, slice, List.drop_drop]

end Bytes

namespace Cursor

/-! ## Shortages -/

/-- The failure of the first of consecutive fields that does not end before the limit. -/
def shortage? (limit : Nat) : (offset : Nat) → (widths : List Nat) → Option CursorError
  | _, [] => none
  | offset, width :: rest =>
      if limit < offset + width then some (.exhausted width offset limit)
      else shortage? limit (offset + width) rest

theorem shortage?_append (limit offset : Nat) (widths others : List Nat) :
    shortage? limit offset (widths ++ others) =
      (shortage? limit offset widths).or (shortage? limit (offset + widths.sum) others) := by
  induction widths generalizing offset with
  | nil => rfl
  | cons width rest ih =>
      rw [List.cons_append, shortage?, shortage?]
      split
      · rfl
      · rw [ih, List.sum_cons, Nat.add_assoc]

/-- From an offset before the limit, there is no shortage exactly if all fields together fit. -/
theorem shortage?_eq_none_iff {limit offset : Nat} {widths : List Nat} (h : offset ≤ limit) :
    shortage? limit offset widths = none ↔ offset + widths.sum ≤ limit := by
  induction widths generalizing offset with
  | nil => exact iff_of_true rfl h
  | cons width rest ih =>
      rw [shortage?, List.sum_cons, ← Nat.add_assoc]
      split
      · refine iff_of_false (Option.some_ne_none _) ?_
        omega
      · exact ih (by omega)

/-! ## Readings that take fields -/

variable {α β : Type} {fields : Fields α} {widths : List Nat} {value : Bytes → α}

/-- A reading takes fields of these widths, and its value is made of their bytes. -/
structure Takes (fields : Fields α) (widths : List Nat) (value : Bytes → α) : Prop where
  /-- Fields that all fit are read, and the read position moves behind them. -/
  run_eq : ∀ c : Cursor, c.error = none → shortage? c.limit c.readPos widths = none →
    fields.run c = (value (c.buffer.slice c.readPos (c.readPos + widths.sum)),
      { c with readPos := c.readPos + widths.sum })
  /-- The first field that does not fit gives the failure. -/
  error_eq : ∀ (c : Cursor) (e : CursorError), c.error = none →
    shortage? c.limit c.readPos widths = some e → (fields.run c).2.error = some e
  /-- A failed cursor stays as it is. -/
  run_of_failed : ∀ (c : Cursor) (e : CursorError), c.error = some e → (fields.run c).2 = c

namespace Takes

protected theorem pure (a : α) : Takes (pure a) [] fun _ => a where
  run_eq _ _ _ := rfl
  error_eq _ _ _ h := by cases h
  run_of_failed _ _ _ := rfl

/-- One word. -/
theorem word (order : ByteOrder) (width : Nat) :
    Takes (readWord order width) [width] order.value where
  run_eq c hc hfits := by
    have hle : ¬ c.limit < c.readPos + width := fun hlt => by
      rw [shortage?, if_pos hlt] at hfits
      cases hfits
    show readWord order width c = _
    rw [readWord, take, hc]
    simp only [if_neg hle, List.sum_singleton]
  error_eq c e hc hshort := by
    show (readWord order width c).2.error = _
    rw [shortage?] at hshort
    split at hshort
    · rename_i hlt
      rw [readWord, take, hc]
      simpa only [if_pos hlt] using hshort
    · cases hshort
  run_of_failed c e hc := by
    show (readWord order width c).2 = c
    rw [readWord, take, hc]

/-- Readings in a row take the fields of the first and then those of the second. -/
theorem bind {next : α → Fields β} {others : List Nat} {result : α → Bytes → β}
    (hfields : Takes fields widths value) (hnext : ∀ a, Takes (next a) others (result a)) :
    Takes (fields >>= next) (widths ++ others) fun bytes =>
      result (value (bytes.take widths.sum)) (bytes.drop widths.sum) where
  run_eq c hc hfits := by
    rw [shortage?_append, Option.or_eq_none_iff] at hfits
    rw [StateT.run_bind, hfields.run_eq c hc hfits.1, List.sum_append, Bytes.take_slice,
      Bytes.drop_slice, ← Nat.add_assoc]
    exact (hnext _).run_eq { c with readPos := c.readPos + widths.sum } hc hfits.2
  error_eq c e hc hshort := by
    rw [StateT.run_bind]
    rw [shortage?_append] at hshort
    cases hfirst : shortage? c.limit c.readPos widths with
    | some failure =>
        have hfailed := hfields.error_eq c failure hc hfirst
        rw [hfirst, Option.some_or] at hshort
        show ((next _).run (fields.run c).2).2.error = some e
        rw [(hnext _).run_of_failed _ failure hfailed, hfailed, hshort]
    | none =>
        rw [hfirst, Option.none_or] at hshort
        rw [hfields.run_eq c hc hfirst]
        exact (hnext _).error_eq { c with readPos := c.readPos + widths.sum } e hc hshort
  run_of_failed c e hc := by
    have hstays := hfields.run_of_failed c e hc
    rw [StateT.run_bind]
    show ((next _).run (fields.run c).2).2 = c
    rw [hstays, (hnext _).run_of_failed c e hc]

protected theorem map (h : Takes fields widths value) (f : α → β) :
    Takes (f <$> fields) widths fun bytes => f (value bytes) where
  run_eq c hc hfits := by
    rw [StateT.run_map, h.run_eq c hc hfits]
    rfl
  error_eq c e hc hshort := by
    rw [StateT.run_map]
    exact h.error_eq c e hc hshort
  run_of_failed c e hc := by
    rw [StateT.run_map]
    exact h.run_of_failed c e hc

/-- Only the value of as many bytes as the fields have matters. -/
theorem congr {other : Bytes → α} (h : Takes fields widths value)
    (heq : ∀ bytes : Bytes, bytes.length ≤ widths.sum → value bytes = other bytes) :
    Takes fields widths other where
  run_eq c hc hfits := by
    rw [h.run_eq c hc hfits, heq]
    rw [Bytes.length_slice]
    omega
  error_eq := h.error_eq
  run_of_failed := h.run_of_failed

/-- One byte, or zero where there is none. -/
theorem byte : Takes byte [1] fun bytes => bytes.headD 0 :=
  ((word .big 1).map UInt8.ofNat).congr fun bytes hlen => by
    match bytes, hlen with
    | [], _ => rfl
    | [b], _ => simp [ByteOrder.value, Bytes.littleValue]

/-- A record is the value of its reading, or its first shortage. -/
theorem record_eq (h : Takes fields widths value) {c : Cursor} (hc : c.error = none) :
    c.record fields = match shortage? c.limit c.readPos widths with
      | some e => .error e
      | none => .ok (value (c.buffer.slice c.readPos (c.readPos + widths.sum))) := by
  cases hshort : shortage? c.limit c.readPos widths with
  | some e =>
      show (match (fields.run c).2.error with
        | some e => .error e
        | none => .ok (fields.run c).1) = Except.error e
      rw [h.error_eq c e hc hshort]
  | none => simp only [record, h.run_eq c hc hshort, hc]

end Takes

end Cursor

end CabinetBus
