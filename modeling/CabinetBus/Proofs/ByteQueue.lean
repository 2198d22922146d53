-- SUMMARY: A cursor that starts out as a writer is a queue of bytes, bounded by its buffer.
import CabinetBus.Proofs.Accesses
import CabinetBus.Proofs.Words

/-!
# Cursors as byte queues

On a writer the limit is the write position: nothing is readable but what was written, in the order
in which it was written. One invariant says so (`Queues`), and each access, whether it fits or not,
appends what it takes to what was consumed and what it puts to what was produced. Words are what
such a queue carries, since reading a word takes as many bytes as writing one of that width puts.
-/

namespace CabinetBus

namespace Cursor

/-! ## What goes through a cursor -/

/-- The bytes that an access takes from a cursor. -/
def Access.taken (c : Cursor) : Access → Bytes
  | .read _ width => (c.take width).1.getD []
  | .write .. | .writeBytes _ => []

/-- The bytes that an access puts on a cursor. -/
def Access.stored (c : Cursor) (a : Access) : Bytes :=
  if (c.access a).2.error = none then a.data else []

def consumed (c : Cursor) : List Access → Bytes
  | [] => []
  | a :: later => a.taken c ++ consumed (c.access a).2 later

def produced (c : Cursor) : List Access → Bytes
  | [] => []
  | a :: later => a.stored c ++ produced (c.access a).2 later

variable {c : Cursor} {capacity : Nat}

theorem taken_of_failed {e : CursorError} (h : c.error = some e) (a : Access) :
    a.taken c = [] := by
  cases a with
  | read order width => simp only [Access.taken, take, h, Option.getD_none]
  | write order width value => rfl
  | writeBytes data => rfl

theorem stored_of_failed {e : CursorError} (h : c.error = some e) (a : Access) :
    a.stored c = [] := by
  simp only [Access.stored, access_of_failed h, h, reduceCtorEq, if_false]

theorem taken_of_misfit (h : c.error = none) {a : Access} (hmisfit : ¬a.Fits c) :
    a.taken c = [] := by
  cases a with
  | read order width =>
      have hlimit : c.limit < c.readPos + width := Nat.lt_of_not_le hmisfit
      simp only [Access.taken, take, h, if_pos hlimit, Option.getD_none]
  | write order width value => rfl
  | writeBytes data => rfl

theorem stored_of_misfit (h : c.error = none) {a : Access} (hmisfit : ¬a.Fits c) :
    a.stored c = [] := by
  simp only [Access.stored, access_of_misfit h hmisfit, reduceCtorEq, if_false]

theorem taken_of_fits (h : c.error = none) {a : Access} (hfits : a.Fits c) :
    a.taken c = c.buffer.slice c.readPos (c.readPos + a.width) := by
  have hnothing : c.buffer.slice c.readPos (c.readPos + 0) = [] :=
    List.drop_eq_nil_of_le (List.length_take_le _ _)
  cases a with
  | read order width =>
      simp only [Access.taken, take, h, if_neg (Nat.not_lt.mpr hfits), Option.getD_some, Access.width]
  | write order width value => exact hnothing.symm
  | writeBytes data => exact hnothing.symm

theorem Placed.stored_of_fits (hplaced : c.Placed capacity) (h : c.error = none) {a : Access}
    (hfits : a.Fits c) : a.stored c = a.data := by
  rw [Access.stored, access_of_fits h hplaced.writePos_le hfits]
  exact if_pos h

/-! ## The queue -/

/-- A queue of bytes: what was produced stands at the front of the buffer and is all that is
readable, and what was consumed is the front of that. -/
structure Queues (c : Cursor) (capacity : Nat) (consumed produced : Bytes) : Prop where
  placed : c.Placed capacity
  limit_eq : c.limit = c.writePos
  readPos_le : c.readPos ≤ c.writePos
  take_buffer : c.buffer.take c.writePos = produced
  take_produced : produced.take c.readPos = consumed

namespace Queues

variable {front back : Bytes}

theorem writer (buffer : Bytes) : (writer buffer).Queues buffer.length [] [] :=
  ⟨.reader buffer 0 0, Nat.zero_min _, Nat.le_refl 0, rfl, rfl⟩

theorem length_produced (h : c.Queues capacity front back) : back.length = c.writePos := by
  have hroom : c.writePos ≤ c.buffer.length := by
    rw [h.placed.length_buffer]
    exact Nat.le_trans h.placed.writePos_le h.placed.limit_le
  rw [← h.take_buffer, List.length_take, Nat.min_eq_left hroom]

theorem length_consumed (h : c.Queues capacity front back) : front.length = c.readPos := by
  rw [← h.take_produced, List.length_take, h.length_produced, Nat.min_eq_left h.readPos_le]

theorem isPrefix (h : c.Queues capacity front back) : front <+: back :=
  h.take_produced ▸ List.take_prefix _ _

/-- What is to be read next was produced. -/
theorem slice_buffer (h : c.Queues capacity front back) {stop : Nat} (hstop : stop ≤ c.writePos) :
    c.buffer.slice c.readPos stop = back.slice c.readPos stop := by
  rw [← h.take_buffer, Bytes.slice_take hstop]

theorem readPos_add_width_le (h : c.Queues capacity front back) {a : Access} (hfits : a.Fits c) :
    c.readPos + a.width ≤ c.writePos := by
  cases a with
  | read order width => exact h.limit_eq ▸ hfits
  | write order width value => exact h.readPos_le
  | writeBytes data => exact h.readPos_le

theorem advance (h : c.Queues capacity front back) {a : Access} (hfits : a.Fits c) :
    (c.advance a).Queues capacity
      (front ++ c.buffer.slice c.readPos (c.readPos + a.width)) (back ++ a.data) := by
  have hstop := h.placed.le_of_fits hfits
  have hread := h.readPos_add_width_le hfits
  refine ⟨h.placed.advance hfits, ?_, Nat.le_trans hread (Nat.le_add_right _ _), ?_, ?_⟩
  · simp only [Cursor.advance, h.limit_eq, Nat.max_eq_right (Nat.le_add_right _ _)]
  · have hroom : c.writePos + a.data.length ≤ c.buffer.length := h.placed.length_buffer ▸ hstop
    have hwhole := Bytes.slice_overwrite_append (Nat.zero_le c.writePos) hroom
    simp only [Bytes.slice, List.drop_zero, h.take_buffer] at hwhole
    exact hwhole
  · have hlength : c.readPos + a.width ≤ back.length := h.length_produced ▸ hread
    simp only [Cursor.advance, List.take_append_of_le_length hlength]
    rw [h.slice_buffer hread, ← h.take_produced, Bytes.take_append_slice _ (Nat.le_add_right _ _)]

/-- Each access appends what it takes and what it puts. -/
theorem access (h : c.Queues capacity front back) (a : Access) :
    (c.access a).2.Queues capacity (front ++ a.taken c) (back ++ a.stored c) := by
  cases herror : c.error with
  | some e =>
      simp only [access_of_failed herror, taken_of_failed herror, stored_of_failed herror,
        List.append_nil]
      exact h
  | none =>
      by_cases hfits : a.Fits c
      · rw [access_of_fits herror h.placed.writePos_le hfits, taken_of_fits herror hfits,
          h.placed.stored_of_fits herror hfits]
        exact h.advance hfits
      · simp only [access_of_misfit herror hfits, taken_of_misfit herror hfits,
          stored_of_misfit herror hfits, List.append_nil]
        exact ⟨⟨h.placed.length_buffer, h.placed.writePos_le, h.placed.limit_le⟩, h.limit_eq,
          h.readPos_le, h.take_buffer, h.take_produced⟩

theorem after (h : c.Queues capacity front back) (accesses : List Access) :
    (c.after accesses).Queues capacity (front ++ consumed c accesses)
      (back ++ produced c accesses) := by
  induction accesses generalizing c front back with
  | nil => simpa only [after_nil, consumed, produced, List.append_nil] using h
  | cons a later ih =>
      simpa only [after_cons, consumed, produced, List.append_assoc] using ih (h.access a)

end Queues

/-! ## Without a failure -/

theorem after_of_failed {e : CursorError} (h : c.error = some e) (accesses : List Access) :
    c.after accesses = c := by
  induction accesses with
  | nil => rfl
  | cons a later ih => rw [after_cons, access_of_failed h, ih]

theorem error_of_after {accesses : List Access} (h : (c.after accesses).error = none) :
    c.error = none := by
  cases herror : c.error with
  | none => rfl
  | some e =>
      rw [after_of_failed herror, herror] at h
      exact h

theorem fits_of_access {a : Access} (h : (c.access a).2.error = none) :
    c.error = none ∧ a.Fits c := by
  have herror : c.error = none := @error_of_after c [a] h
  refine ⟨herror, Decidable.byContradiction fun hmisfit => ?_⟩
  rw [access_of_misfit herror hmisfit] at h
  exact nomatch h

/-- The values that the reads among accesses find in the bytes before them. -/
def readings : List Access → Bytes → List Nat
  | [], _ => []
  | .read order width :: later, bytes =>
      order.value (bytes.take width) :: readings later (bytes.drop width)
  | .write .. :: later, bytes | .writeBytes _ :: later, bytes => readings later bytes

theorem readings_read {front : Bytes} {width : Nat} (h : front.length = width) (order : ByteOrder)
    (later : List Access) (back : Bytes) :
    readings (.read order width :: later) (front ++ back) =
      order.value front :: readings later back := by
  rw [readings, List.take_left' h, List.drop_left' h]

theorem readings_single {front : Bytes} {width : Nat} (h : front.length = width)
    (order : ByteOrder) : readings [.read order width] front = [order.value front] := by
  have hread := readings_read h order [] []
  rwa [List.append_nil] at hread

theorem readings_cons {a : Access} {front : Bytes} (h : front.length = a.width)
    (later : List Access) (back : Bytes) :
    readings (a :: later) (front ++ back) = readings [a] front ++ readings later back := by
  cases a with
  | read order width =>
      have hwidth : front.length = width := h
      rw [readings_read hwidth, readings_single hwidth, List.singleton_append]
  | write order width value =>
      rw [List.eq_nil_of_length_eq_zero h]
      rfl
  | writeBytes data =>
      rw [List.eq_nil_of_length_eq_zero h]
      rfl

namespace Placed

theorem length_taken (hplaced : c.Placed capacity) (h : c.error = none) {a : Access}
    (hfits : a.Fits c) : (a.taken c).length = a.width := by
  cases a with
  | read order width =>
      have hroom : c.readPos + width ≤ c.buffer.length := by
        rw [hplaced.length_buffer]
        exact Nat.le_trans hfits hplaced.limit_le
      rw [taken_of_fits h hfits, Bytes.length_slice, Access.width, Nat.min_eq_left hroom,
        Nat.add_sub_cancel_left]
  | write order width value => rfl
  | writeBytes data => rfl

/-- An access that fits answers with the value of what it takes. -/
theorem answer_of_fits (hplaced : c.Placed capacity) (h : c.error = none) {a : Access}
    (hfits : a.Fits c) : (c.access a).1.toList = readings [a] (a.taken c) := by
  rw [access_of_fits h hplaced.writePos_le hfits]
  cases a with
  | read order width =>
      have hlength : (Access.taken c (.read order width)).length = width :=
        hplaced.length_taken h hfits
      rw [readings_single hlength, taken_of_fits h hfits]
      rfl
  | write order width value => rfl
  | writeBytes data => rfl

/-- Where nothing failed, all that was to be written was put on the cursor, and the answers are read
off what was taken from it. -/
theorem done_of_no_failure (hplaced : c.Placed capacity) {accesses : List Access}
    (h : (c.after accesses).error = none) :
    produced c accesses = written accesses ∧
      (consumed c accesses).length = readLength accesses ∧
      (c.accesses accesses).filterMap Prod.fst = readings accesses (consumed c accesses) := by
  induction accesses generalizing c with
  | nil => exact ⟨rfl, rfl, rfl⟩
  | cons a later ih =>
      obtain ⟨hbefore, hfits⟩ := fits_of_access (error_of_after h)
      obtain ⟨hput, htaken, hanswers⟩ := ih (hplaced.access a) h
      have hlength := hplaced.length_taken hbefore hfits
      refine ⟨?_, ?_, ?_⟩
      · rw [produced, hplaced.stored_of_fits hbefore hfits, hput, written_cons]
      · rw [consumed, List.length_append, hlength, htaken, readLength_cons]
      · rw [consumed, readings_cons hlength, ← hplaced.answer_of_fits hbefore hfits, ← hanswers,
          Cursor.accesses, List.filterMap_cons]
        cases (c.access a).1 <;> rfl

end Placed

namespace Queues

variable {front back : Bytes}

theorem bounds (h : c.Queues capacity front back) :
    c.readPos ≤ c.writePos ∧ c.writePos ≤ capacity :=
  ⟨h.readPos_le, Nat.le_trans h.placed.writePos_le h.placed.limit_le⟩

theorem fits_iff (h : c.Queues capacity front back) (a : Access) :
    a.Fits c ↔ c.readPos + a.width ≤ c.writePos + a.data.length ∧
      c.writePos + a.data.length ≤ capacity := by
  have hbounds := h.bounds
  cases a with
  | read order width =>
      simp only [Access.Fits, h.limit_eq, Access.width, Access.data, List.length_nil]
      omega
  | write order width value =>
      simp only [Access.Fits, h.placed.length_buffer, Access.width, Access.data,
        ByteOrder.length_word]
      omega
  | writeBytes data =>
      simp only [Access.Fits, h.placed.length_buffer, Access.width, Access.data]
      omega

/-- A queue fails once more is read than was written by then, or more is written than there is
room for, and not before. -/
theorem no_failure_iff (hqueue : c.Queues capacity front back) (h : c.error = none)
    (accesses : List Access) :
    (c.after accesses).error = none ↔ ∀ earlier, earlier <+: accesses →
      c.readPos + readLength earlier ≤ c.writePos + (written earlier).length ∧
        c.writePos + (written earlier).length ≤ capacity := by
  induction accesses generalizing c front back with
  | nil =>
      refine ⟨fun _ earlier hprefix => ?_, fun _ => h⟩
      obtain rfl := List.prefix_nil.mp hprefix
      exact hqueue.bounds
  | cons a later ih =>
      by_cases hfits : a.Fits c
      · have hnext := ih (hqueue.advance hfits) h
        simp only [Cursor.advance, Nat.add_assoc] at hnext
        rw [after_cons, access_of_fits h hqueue.placed.writePos_le hfits]
        refine hnext.trans ⟨fun hlater earlier hprefix => ?_, fun hall earlier hprefix => ?_⟩
        · rcases List.prefix_cons_iff.mp hprefix with rfl | ⟨earlier, rfl, hrest⟩
          · exact hqueue.bounds
          · simpa only [readLength_cons, written_cons, List.length_append] using hlater earlier hrest
        · simpa only [readLength_cons, written_cons, List.length_append] using
            hall (a :: earlier) (List.cons_prefix_cons.mpr ⟨rfl, hprefix⟩)
      · refine ⟨fun hlast => absurd (fits_of_access (error_of_after hlast)).2 hfits, fun hall => ?_⟩
        have hfirst := hall [a] (List.cons_prefix_cons.mpr ⟨rfl, List.nil_prefix⟩)
        simp only [readLength_cons, readLength_nil, written_cons, written_nil, List.append_nil,
          Nat.add_zero] at hfirst
        exact absurd ((hqueue.fits_iff a).mpr hfirst) hfits

/-- The next read is answered from what was produced, or it fails. -/
theorem read_next (hqueue : c.Queues capacity front back) (h : c.error = none) (order : ByteOrder)
    (width : Nat) :
    c.access (.read order width) =
      if c.readPos + width ≤ c.writePos then
        (some (order.value (back.slice c.readPos (c.readPos + width))),
          { c with readPos := c.readPos + width })
      else (some 0, { c with error := some (.exhausted width c.readPos c.writePos) }) := by
  by_cases hread : c.readPos + width ≤ c.writePos
  · have hfits : ¬c.limit < c.readPos + width := hqueue.limit_eq ▸ Nat.not_lt.mpr hread
    simp only [Cursor.access, readWord, take, h, if_neg hfits, if_pos hread,
      hqueue.slice_buffer hread]
  · have hmisfit : ¬Access.Fits c (.read order width) := fun hfits =>
      hread (hqueue.limit_eq ▸ hfits)
    rw [if_neg hread, access_of_misfit h hmisfit, Access.failure, hqueue.limit_eq]
    rfl

end Queues

/-! ## Words -/

/-- A value in a word of some bytes. -/
structure Word where
  order : ByteOrder
  width : Nat
  value : Fin (256 ^ width)

namespace Word

def bytes (word : Word) : Bytes := word.order.word word.width word.value

def write (word : Word) : Access := .write word.order word.width word.value

def read (word : Word) : Access := .read word.order word.width

end Word

def Access.isRead : Access → Bool
  | .read .. => true
  | .write .. | .writeBytes _ => false

theorem readings_filter (accesses : List Access) (bytes : Bytes) :
    readings (accesses.filter Access.isRead) bytes = readings accesses bytes := by
  induction accesses generalizing bytes with
  | nil => rfl
  | cons a later ih =>
      cases a with
      | read order width => exact congrArg (order.value (bytes.take width) :: ·) (ih _)
      | write order width value => exact ih bytes
      | writeBytes data => exact ih bytes

theorem readLength_filter (accesses : List Access) :
    readLength (accesses.filter Access.isRead) = readLength accesses := by
  induction accesses with
  | nil => rfl
  | cons a later ih =>
      cases a with
      | read order width => exact congrArg (width + ·) ih
      | write order width value => exact ih.trans (Nat.zero_add _).symm
      | writeBytes data => exact ih.trans (Nat.zero_add _).symm

theorem written_filter (accesses : List Access) :
    written (accesses.filter (!·.isRead)) = written accesses := by
  induction accesses with
  | nil => rfl
  | cons a later ih =>
      cases a with
      | read order width => exact ih
      | write order width value => exact congrArg (order.word width value ++ ·) ih
      | writeBytes data => exact congrArg (data ++ ·) ih

theorem written_map_write (words : List Word) :
    written (words.map Word.write) = words.flatMap Word.bytes := List.flatMap_map ..

theorem readLength_map_read (words : List Word) :
    readLength (words.map Word.read) = (words.flatMap Word.bytes).length := by
  induction words with
  | nil => rfl
  | cons word later ih =>
      rw [List.map_cons, readLength_cons, ih, List.flatMap_cons, List.length_append, Word.bytes,
        ByteOrder.length_word]
      rfl

/-- Words that lie one behind another are read as their values. -/
theorem readings_map_read (words : List Word) :
    readings (words.map Word.read) (words.flatMap Word.bytes) = words.map (·.value.val) := by
  induction words with
  | nil => rfl
  | cons word later ih =>
      have hlength : word.bytes.length = word.width := ByteOrder.length_word ..
      have hvalue : word.order.value word.bytes = word.value := by
        rw [Word.bytes, ByteOrder.value_word, Nat.mod_eq_of_lt word.value.isLt]
      rw [List.map_cons, List.flatMap_cons, Word.read, readings_read hlength, hvalue, ih,
        List.map_cons]

/-! ## Every use of a writer -/

/-- A writer is a queue of bytes that its buffer bounds. Whatever is asked of it, the bytes that are
read are the first of those that were written. Unless it failed earlier, a read is answered from
what was written, and if not enough was, it fails there; what the buffer held before is never read.
It fails once more is read than was written by then, or more is written than the buffer holds, and
not before. Where it does not fail, words that are read in the orders and widths in which they were
written, at any time behind that, are read as the values that were written. -/
theorem writer_is_byte_queue (buffer : Bytes) (accesses : List Access) :
    let c := writer buffer
    let last := c.after accesses
    let produced := produced c accesses
    consumed c accesses <+: produced ∧
    (last.error = none →
      last.readPos = (consumed c accesses).length ∧ last.writePos = produced.length ∧
      last.limit = last.writePos ∧
      ∀ order width, last.access (.read order width) =
        if last.readPos + width ≤ last.writePos then
          (some (order.value (produced.slice last.readPos (last.readPos + width))),
            { last with readPos := last.readPos + width })
        else (some 0, { last with error := some (.exhausted width last.readPos last.writePos) })) ∧
    (last.error = none ↔ ∀ earlier, earlier <+: accesses →
      readLength earlier ≤ (written earlier).length ∧
        (written earlier).length ≤ buffer.length) ∧
    (last.error = none → ∀ (words : List Word) (count : Nat),
      accesses.filter (!·.isRead) = words.map Word.write →
      accesses.filter Access.isRead = (words.take count).map Word.read →
      (c.accesses accesses).filterMap Prod.fst = (words.take count).map (·.value.val)) := by
  intro c last produced
  have hwriter : c.Queues buffer.length [] [] := .writer buffer
  have hlast : last.Queues buffer.length (consumed c accesses) produced := by
    simpa only [List.nil_append] using hwriter.after accesses
  refine ⟨hlast.isPrefix, fun herror => ⟨hlast.length_consumed.symm, hlast.length_produced.symm,
    hlast.limit_eq, hlast.read_next herror⟩, ?_, fun herror words count hwrites hreads => ?_⟩
  · have hread : c.readPos = 0 := rfl
    have hwrite : c.writePos = 0 := rfl
    simpa only [hread, hwrite, Nat.zero_add] using hwriter.no_failure_iff rfl accesses
  · obtain ⟨hput, hlength, hanswers⟩ := hwriter.placed.done_of_no_failure herror
    have hwords : produced = words.flatMap Word.bytes := by
      rw [← written_map_write, ← hwrites, written_filter]
      exact hput
    have hfront : consumed c accesses = (words.take count).flatMap Word.bytes := by
      have hprefix : (words.take count).flatMap Word.bytes <+: produced := by
        refine ⟨(words.drop count).flatMap Word.bytes, ?_⟩
        rw [hwords, ← List.flatMap_append, List.take_append_drop]
      have hsame : (consumed c accesses).length = ((words.take count).flatMap Word.bytes).length := by
        rw [hlength, ← readLength_filter, hreads, readLength_map_read]
      exact (List.prefix_of_prefix_length_le hlast.isPrefix hprefix (Nat.le_of_eq hsame)).eq_of_length
        hsame
    rw [hanswers, ← readings_filter, hreads, hfront, readings_map_read]

/-- The buffer holds a third byte, but nobody wrote it. -/
example :
    ((writer [9, 9, 9]).accesses [.write .big 2 258, .read .big 1, .read .big 2]).map Prod.fst =
      [none, some 1, some 0] := by
  decide

end Cursor

end CabinetBus
