-- SUMMARY: Unescaping as a state that runs over the bytes, and the two passes that carry it out.
import CabinetBus.Frame.Unframing

/-!
# Unescaping as a running state

Unescaping looks back by one byte only: it remembers whether the byte before was
an escape marker that still waits for its partner. Both passes of unframing keep
this flag. The pass in place and the pass into a bounded target are shown here to
compute the same function of flag and bytes.
-/

namespace CabinetBus.Frame

/-! ## The running form -/

/-- Unescapes bytes, given whether an escape marker came just before them. -/
def unescapeFrom : Bool → Bytes → Bytes
  | _, [] => []
  | true, b :: rest => (b ^^^ escapeMask) :: unescapeFrom false rest
  | false, b :: rest =>
      if b = escapeMarker then unescapeFrom true rest else b :: unescapeFrom false rest

/-- Whether the bytes end on an escape marker that waits for its partner. -/
def leavesEscape : Bool → Bytes → Bool
  | escaped, [] => escaped
  | true, _ :: rest => leavesEscape false rest
  | false, b :: rest => leavesEscape (b == escapeMarker) rest

@[simp] theorem unescapeFrom_nil (escaped : Bool) : unescapeFrom escaped [] = [] := by
  cases escaped <;> rfl

@[simp] theorem leavesEscape_nil (escaped : Bool) : leavesEscape escaped [] = escaped := by
  cases escaped <;> rfl

@[simp] theorem unescapeFrom_true_cons (b : UInt8) (rest : Bytes) :
    unescapeFrom true (b :: rest) = (b ^^^ escapeMask) :: unescapeFrom false rest := rfl

@[simp] theorem leavesEscape_true_cons (b : UInt8) (rest : Bytes) :
    leavesEscape true (b :: rest) = leavesEscape false rest := rfl

@[simp] theorem unescapeFrom_marker (rest : Bytes) :
    unescapeFrom false (escapeMarker :: rest) = unescapeFrom true rest := rfl

@[simp] theorem leavesEscape_marker (rest : Bytes) :
    leavesEscape false (escapeMarker :: rest) = leavesEscape true rest := rfl

theorem unescapeFrom_plain {b : UInt8} (hb : b ≠ escapeMarker) (rest : Bytes) :
    unescapeFrom false (b :: rest) = b :: unescapeFrom false rest := by
  simp only [unescapeFrom, if_neg hb]

theorem leavesEscape_plain {b : UInt8} (hb : b ≠ escapeMarker) (rest : Bytes) :
    leavesEscape false (b :: rest) = leavesEscape false rest := by
  simp only [leavesEscape, beq_eq_false_iff_ne.mpr hb]

/-- With no escape marker before it, the running form is the pass over pairs. -/
theorem unescapeFrom_false (bytes : Bytes) : unescapeFrom false bytes = unescape bytes := by
  fun_induction unescape bytes with
  | case1 => rfl
  | case2 => rfl
  | case3 b hb =>
      rw [unescapeFrom_plain hb, unescapeFrom_nil]
  | case4 c rest ih =>
      rw [unescapeFrom_marker, unescapeFrom_true_cons, ih]
  | case5 b c rest hb ih =>
      rw [unescapeFrom_plain hb, ih]

theorem unescapeFrom_append (escaped : Bool) (left right : Bytes) :
    unescapeFrom escaped (left ++ right) =
      unescapeFrom escaped left ++ unescapeFrom (leavesEscape escaped left) right := by
  induction left generalizing escaped with
  | nil => simp
  | cons b left ih =>
      cases escaped with
      | true => simp [ih]
      | false =>
          by_cases hb : b = escapeMarker
          · subst hb
            simp [ih]
          · simp [unescapeFrom_plain hb, leavesEscape_plain hb, ih]

theorem leavesEscape_append (escaped : Bool) (left right : Bytes) :
    leavesEscape escaped (left ++ right) = leavesEscape (leavesEscape escaped left) right := by
  induction left generalizing escaped with
  | nil => simp
  | cons b left ih =>
      cases escaped with
      | true => simp [ih]
      | false =>
          by_cases hb : b = escapeMarker
          · subst hb
            simp [ih]
          · simp [leavesEscape_plain hb, ih]

/-- Escaping leaves no marker waiting. -/
@[simp] theorem leavesEscape_escape (body : Bytes) : leavesEscape false (escape body) = false := by
  induction body with
  | nil => rfl
  | cons b body ih =>
      rw [escape_cons, leavesEscape_append]
      unfold escapeByte
      split
      · simpa using ih
      · rename_i hb
        have hne : b ≠ escapeMarker := by
          rintro rfl
          exact hb rfl
        simpa [leavesEscape_plain hne] using ih

/-! ## Lengths -/

/-- At most every second byte drops out, and one more at the end. -/
theorem length_le_unescapeFrom (escaped : Bool) (bytes : Bytes) :
    bytes.length + escaped.toNat ≤ 2 * (unescapeFrom escaped bytes).length + 1 := by
  induction bytes generalizing escaped with
  | nil => cases escaped <;> simp
  | cons b rest ih =>
      cases escaped with
      | true =>
          have hrest := ih false
          simp only [Bool.toNat_false, unescapeFrom_true_cons, List.length_cons,
            Bool.toNat_true] at hrest ⊢
          omega
      | false =>
          by_cases hb : b = escapeMarker
          · subst hb
            have hrest := ih true
            simp only [Bool.toNat_true, unescapeFrom_marker, List.length_cons,
              Bool.toNat_false] at hrest ⊢
            omega
          · have hrest := ih false
            simp only [unescapeFrom_plain hb, List.length_cons, Bool.toNat_false] at hrest ⊢
            omega

theorem length_unescapeFrom_le (escaped : Bool) (bytes : Bytes) :
    (unescapeFrom escaped bytes).length ≤ bytes.length := by
  induction bytes generalizing escaped with
  | nil => simp
  | cons b rest ih =>
      cases escaped with
      | true => simpa using ih false
      | false =>
          by_cases hb : b = escapeMarker
          · subst hb
            have hrest := ih true
            simp only [unescapeFrom_marker, List.length_cons]
            omega
          · simpa [unescapeFrom_plain hb] using ih false

/-- Bytes after which no escape marker waits give at least one byte back. -/
theorem unescapeFrom_ne_nil {escaped : Bool} {b : UInt8} {rest : Bytes}
    (h : leavesEscape escaped (b :: rest) = false) : unescapeFrom escaped (b :: rest) ≠ [] := by
  cases escaped with
  | true => simp
  | false =>
      by_cases hb : b = escapeMarker
      · subst hb
        cases rest with
        | nil => simp at h
        | cons c rest => simp
      · simp [unescapeFrom_plain hb]

/-! ## The bounded pass -/

/-- If no escape marker waits at the end, the bounded pass runs out of room exactly
when the unescaped bytes exceed it. -/
theorem unescapeWithin_eq {escaped : Bool} {source : Bytes} (room : Nat)
    (h : leavesEscape escaped source = false) :
    unescapeWithin room escaped source =
      if (unescapeFrom escaped source).length ≤ room then (unescapeFrom escaped source, true)
      else ((unescapeFrom escaped source).take room, false) := by
  fun_induction unescapeWithin room escaped source with
  | case1 => simp
  | case2 escaped b rest =>
      have hpos := List.length_pos_iff.mpr (unescapeFrom_ne_nil h)
      rw [if_neg (by omega), List.take_zero]
  | case3 room b rest bytes complete hrec ih =>
      rw [ih h] at hrec
      simp only [unescapeFrom_true_cons, List.length_cons, List.take_succ_cons]
      split at hrec <;> simp_all
  | case4 room rest ih =>
      rw [ih h, unescapeFrom_marker]
  | case5 room b rest hb bytes complete hrec ih =>
      rw [leavesEscape_plain hb] at h
      rw [ih h] at hrec
      simp only [unescapeFrom_plain hb, List.length_cons, List.take_succ_cons]
      split at hrec <;> simp_all

/-! ## The pass in place -/

namespace InPlace

/-- The pass when `done` is finished and `todo` is still to read. Between them lies what
it has read and not overwritten. -/
def midway (done junk todo tail : Bytes) (escaped : Bool) : InPlace :=
  ⟨(done ++ (junk ++ todo) ++ tail).toArray, done.length, escaped⟩

/-- A written byte takes the first place of what was read; the place it came from is free. -/
theorem put_midway (done junk todo tail : Bytes) (escaped : Bool) (b x : UInt8) :
    (midway done junk (b :: todo) tail escaped).put x =
      midway (done ++ [x]) (junk ++ [b]).tail todo tail false := by
  cases junk <;> simp [midway, put]

/-- Before a byte is written, the pass reads it unchanged. -/
theorem getD_midway (done junk todo tail : Bytes) (escaped : Bool) (b : UInt8) :
    (midway done junk (b :: todo) tail escaped).buffer.getD (done.length + junk.length) 0 = b := by
  simp [midway]

theorem step_midway_true (done junk todo tail : Bytes) (b : UInt8) :
    (midway done junk (b :: todo) tail true).step (done.length + junk.length) =
      midway (done ++ [b ^^^ escapeMask]) (junk ++ [b]).tail todo tail false := by
  rw [← put_midway done junk todo tail true, step, getD_midway]
  rfl

theorem step_midway_marker (done junk todo tail : Bytes) :
    (midway done junk (escapeMarker :: todo) tail false).step (done.length + junk.length) =
      midway done (junk ++ [escapeMarker]) todo tail true := by
  rw [step, getD_midway]
  simp [midway]

theorem step_midway_plain (done junk todo tail : Bytes) {b : UInt8} (hb : b ≠ escapeMarker) :
    (midway done junk (b :: todo) tail false).step (done.length + junk.length) =
      midway (done ++ [b]) (junk ++ [b]).tail todo tail false := by
  rw [← put_midway done junk todo tail false, step, getD_midway]
  simp [midway, hb]

/-- The whole pass: it ends behind the unescaped bytes, and what it has not overwritten
is as it was. -/
theorem foldl_step (done junk body tail : Bytes) (escaped : Bool) :
    (List.range' (done.length + junk.length) body.length).foldl step
        (midway done junk body tail escaped) =
      midway (done ++ unescapeFrom escaped body)
        ((junk ++ body).drop (unescapeFrom escaped body).length) [] tail
        (leavesEscape escaped body) := by
  induction body generalizing done junk escaped with
  | nil => simp
  | cons b rest ih =>
      -- A byte that is written leaves as much behind the finished part as before.
      have hwritten (x : UInt8) : done.length + junk.length + 1 =
          (done ++ [x]).length + (junk ++ [b]).tail.length := by
        simp only [List.length_append, List.length_singleton, List.length_tail]
        omega
      have hleft (count : Nat) : ((junk ++ [b]).tail ++ rest).drop count =
          (junk ++ b :: rest).drop (count + 1) := by
        rw [Nat.add_comm count 1, ← List.drop_drop, List.drop_one]
        cases junk <;> simp
      rw [List.length_cons, List.range'_succ, List.foldl_cons]
      cases escaped with
      | true =>
          rw [step_midway_true, hwritten, ih, hleft, List.append_assoc]
          rfl
      | false =>
          by_cases hb : b = escapeMarker
          · subst hb
            have hskipped : done.length + junk.length + 1 =
                done.length + (junk ++ [escapeMarker]).length := by
              simp only [List.length_append, List.length_singleton]
              omega
            rw [step_midway_marker, hskipped, ih, List.append_assoc]
            rfl
          · rw [step_midway_plain _ _ _ _ hb, hwritten b, ih, hleft, List.append_assoc,
              unescapeFrom_plain hb, leavesEscape_plain hb]
            rfl

end InPlace

end CabinetBus.Frame
