-- SUMMARY: What any sequence of cursor accesses does up to the first that does not fit, and from it on.
import CabinetBus.Bytes.Cursor
import CabinetBus.Proofs.InBounds

/-!
# Sequences of accesses

Up to the first access that does not fit, a cursor is a plain byte array: what was written stands
at its front, what is read is what stands there by then, and two positions move on by the lengths of
what was read and written. The access that does not fit is kept as the failure, and the cursor
stays as it was before it, whatever is asked of it afterwards. Positions are sums of lengths that
are bounded by the buffer, so no sum goes beyond a machine word if the first read does not.
-/

namespace CabinetBus

namespace Cursor

/-! ## Accesses -/

namespace Access

/-- The bytes that an access writes. -/
def data : Access → Bytes
  | .read .. => []
  | .write order width value => order.word width value
  | .writeBytes data => data

/-- The number of bytes that an access reads. -/
def width : Access → Nat
  | .read _ width => width
  | .write .. | .writeBytes _ => 0

/-- A read fits before the limit, and a write before the end of the buffer. -/
def Fits (c : Cursor) : Access → Prop
  | .read _ width => c.readPos + width ≤ c.limit
  | .write _ width _ => c.writePos + width ≤ c.buffer.length
  | .writeBytes data => c.writePos + data.length ≤ c.buffer.length

instance (c : Cursor) (a : Access) : Decidable (a.Fits c) := by
  cases a <;> exact inferInstanceAs (Decidable (_ ≤ _))

/-- What there is to report of an access that does not fit. -/
def failure (c : Cursor) : Access → CursorError
  | .read _ width => .exhausted width c.readPos c.limit
  | .write _ width _ => .overflow width c.writePos c.buffer.length
  | .writeBytes data => .overflow data.length c.writePos c.buffer.length

/-- The answer to an access that fits: a read gives the value of the next bytes. -/
def answer (c : Cursor) : Access → Option Nat
  | .read order width => some (order.value (c.buffer.slice c.readPos (c.readPos + width)))
  | .write .. | .writeBytes _ => none

/-- The answer to an access that does nothing. -/
def blank : Access → Option Nat
  | .read .. => some 0
  | .write .. | .writeBytes _ => none

end Access

/-- What is written by accesses that all fit. -/
def written (accesses : List Access) : Bytes := accesses.flatMap Access.data

/-- How many bytes are read by accesses that all fit. -/
def readLength : List Access → Nat
  | [] => 0
  | a :: later => a.width + readLength later

@[simp] theorem written_nil : written [] = [] := rfl

@[simp] theorem readLength_nil : readLength [] = 0 := rfl

@[simp] theorem written_append (front back : List Access) :
    written (front ++ back) = written front ++ written back := List.flatMap_append

@[simp] theorem readLength_append (front back : List Access) :
    readLength (front ++ back) = readLength front + readLength back := by
  induction front with
  | nil => exact (Nat.zero_add _).symm
  | cons a later ih => rw [List.cons_append, readLength, ih, readLength, Nat.add_assoc]

@[simp] theorem written_cons (a : Access) (later : List Access) :
    written (a :: later) = a.data ++ written later := List.flatMap_cons

@[simp] theorem readLength_cons (a : Access) (later : List Access) :
    readLength (a :: later) = a.width + readLength later := rfl

/-- The cursor behind accesses in order. -/
def after (c : Cursor) (accesses : List Access) : Cursor :=
  accesses.foldl (fun cursor a => (cursor.access a).2) c

@[simp] theorem after_nil (c : Cursor) : c.after [] = c := rfl

@[simp] theorem after_cons (c : Cursor) (a : Access) (later : List Access) :
    c.after (a :: later) = (c.access a).2.after later := rfl

/-! ## One access -/

/-- A failed cursor does nothing more. -/
theorem access_of_failed {c : Cursor} {e : CursorError} (h : c.error = some e) (a : Access) :
    c.access a = (a.blank, c) := by
  cases a with
  | read order width => simp only [access, readWord, take, h, Access.blank]
  | write order width value => simp only [access, writeWord, put, h, Access.blank]
  | writeBytes data => simp only [access, put, h, Access.blank]

/-- An access that does not fit is kept as the failure, and does nothing else. -/
theorem access_of_misfit {c : Cursor} (h : c.error = none) {a : Access} (hmisfit : ¬a.Fits c) :
    c.access a = (a.blank, { c with error := some (a.failure c) }) := by
  cases a with
  | read order width =>
      have hlimit : c.limit < c.readPos + width := Nat.lt_of_not_le hmisfit
      simp only [access, readWord, take, h, if_pos hlimit, Access.blank, Access.failure]
  | write order width value =>
      have hfull : c.buffer.length < c.writePos + width := Nat.lt_of_not_le hmisfit
      simp only [access, writeWord, put, h, ByteOrder.length_word, if_pos hfull, Access.blank,
        Access.failure]
  | writeBytes data =>
      have hfull : c.buffer.length < c.writePos + data.length := Nat.lt_of_not_le hmisfit
      simp only [access, put, h, if_pos hfull, Access.blank, Access.failure]

/-- What an access that fits makes of a cursor: the read position moves on by what was read, and
the write position by what was written there. -/
def advance (c : Cursor) (a : Access) : Cursor :=
  { c with
    buffer := c.buffer.overwrite c.writePos a.data
    readPos := c.readPos + a.width
    writePos := c.writePos + a.data.length
    limit := max c.limit (c.writePos + a.data.length) }

theorem access_of_fits {c : Cursor} (h : c.error = none) (hlimit : c.writePos ≤ c.limit)
    {a : Access} (hfits : a.Fits c) : c.access a = (a.answer c, c.advance a) := by
  cases a with
  | read order width =>
      have hbuffer : c.buffer.overwrite c.writePos [] = c.buffer := by simp [Bytes.overwrite]
      simp only [access, readWord, take, h, if_neg (Nat.not_lt.mpr hfits), Access.answer, advance,
        Access.data, Access.width, hbuffer, List.length_nil, Nat.add_zero, Nat.max_eq_left hlimit]
  | write order width value =>
      have hroom : ¬c.buffer.length < c.writePos + width := Nat.not_lt.mpr hfits
      simp only [access, writeWord, put, h, ByteOrder.length_word, if_neg hroom, Access.answer,
        advance, Access.data, Access.width, Nat.add_zero]
  | writeBytes data =>
      have hroom : ¬c.buffer.length < c.writePos + data.length := Nat.not_lt.mpr hfits
      simp only [access, put, h, if_neg hroom, Access.answer, advance, Access.data, Access.width,
        Nat.add_zero]

/-! ## Bounds -/

/-- A cursor over a buffer of some capacity writes and reads within it. -/
structure Placed (c : Cursor) (capacity : Nat) : Prop where
  length_buffer : c.buffer.length = capacity
  writePos_le : c.writePos ≤ c.limit
  limit_le : c.limit ≤ capacity

namespace Placed

variable {c : Cursor} {capacity : Nat}

theorem reader (buffer : Bytes) (start limit : Nat) :
    (reader buffer start limit).Placed buffer.length :=
  ⟨rfl, Nat.zero_le _, Nat.min_le_right _ _⟩

/-- An access that fits ends within the buffer. -/
theorem le_of_fits (h : c.Placed capacity) {a : Access} (hfits : a.Fits c) :
    c.writePos + a.data.length ≤ capacity := by
  have hlimit := h.limit_le
  have hwrite := h.writePos_le
  cases a with
  | read order width => exact Nat.le_trans hwrite hlimit
  | write order width value =>
      simp only [Access.Fits, h.length_buffer] at hfits
      simpa only [Access.data, ByteOrder.length_word] using hfits
  | writeBytes data =>
      simp only [Access.Fits, h.length_buffer] at hfits
      exact hfits

theorem advance (h : c.Placed capacity) {a : Access} (hfits : a.Fits c) :
    (c.advance a).Placed capacity := by
  have hstop := h.le_of_fits hfits
  refine ⟨?_, Nat.le_max_right _ _, Nat.max_le.mpr ⟨h.limit_le, hstop⟩⟩
  have hroom : c.writePos + a.data.length ≤ c.buffer.length := h.length_buffer ▸ hstop
  exact (Bytes.length_overwrite hroom).trans h.length_buffer

/-- Whether it fits or not, an access leaves the cursor within its buffer. -/
theorem access (h : c.Placed capacity) (a : Access) : (c.access a).2.Placed capacity := by
  cases herror : c.error with
  | some e =>
      rw [access_of_failed herror]
      exact h
  | none =>
      by_cases hfits : a.Fits c
      · rw [access_of_fits herror h.writePos_le hfits]
        exact h.advance hfits
      · rw [access_of_misfit herror hfits]
        exact ⟨h.length_buffer, h.writePos_le, h.limit_le⟩

/-- Only a read that fits moves the read position. -/
theorem readPos_access_le (h : c.Placed capacity) (a : Access) :
    (c.access a).2.readPos ≤ max c.readPos capacity := by
  have hlimit := h.limit_le
  cases herror : c.error with
  | some e =>
      rw [access_of_failed herror]
      exact Nat.le_max_left _ _
  | none =>
      by_cases hfits : a.Fits c
      · rw [access_of_fits herror h.writePos_le hfits]
        cases a with
        | read order width => exact Nat.le_trans (Nat.le_trans hfits hlimit) (Nat.le_max_right _ _)
        | write order width value => exact Nat.le_max_left _ _
        | writeBytes data => exact Nat.le_max_left _ _
      · rw [access_of_misfit herror hfits]
        exact Nat.le_max_left _ _

theorem accesses (h : c.Placed capacity) (accesses : List Access) :
    ∀ step ∈ c.accesses accesses, step.2.Placed capacity := by
  induction accesses generalizing c with
  | nil => exact fun _ hmem => nomatch hmem
  | cons a later ih =>
      simp only [Cursor.accesses, List.forall_mem_cons]
      exact ⟨h.access a, ih (h.access a)⟩

end Placed

/-! ## The plain byte array -/

/-- A byte array behind accesses that all fit: what was written stands at its front, and the
positions have moved on by the lengths of what was read and written. -/
def plain (buffer : Bytes) (start limit : Nat) (done : List Access) : Cursor where
  buffer := buffer.overwrite 0 (written done)
  readPos := start + readLength done
  writePos := (written done).length
  limit := max (min limit buffer.length) (written done).length
  error := none

/-- The answers of a byte array to accesses that all fit, behind earlier ones, each with the array
behind it. -/
def plainSteps (buffer : Bytes) (start limit : Nat) :
    (earlier later : List Access) → List (Option Nat × Cursor)
  | _, [] => []
  | earlier, a :: later =>
      (a.answer (plain buffer start limit earlier), plain buffer start limit (earlier ++ [a])) ::
        plainSteps buffer start limit (earlier ++ [a]) later

/-- The answers of a cursor that keeps the first of the accesses as its failure. -/
def latchedSteps (c : Cursor) : List Access → List (Option Nat × Cursor)
  | [] => []
  | bad :: later =>
      (bad :: later).map fun a => (a.blank, { c with error := some (bad.failure c) })

/-- Accesses that all fit, each behind those before it. -/
def FitBehind (buffer : Bytes) (start limit : Nat) (earlier later : List Access) : Prop :=
  ∀ front a back, later = front ++ a :: back → a.Fits (plain buffer start limit (earlier ++ front))

section

variable {buffer : Bytes} {start limit : Nat}

theorem plain_nil : plain buffer start limit [] = reader buffer start limit := by
  simp [plain, reader, Bytes.overwrite]

theorem plain_concat (done : List Access) (a : Access) :
    plain buffer start limit (done ++ [a]) = (plain buffer start limit done).advance a := by
  simp only [plain, advance, written_append, written_cons, written_nil, List.append_nil,
    readLength_append, readLength_cons, readLength_nil, Nat.add_zero, List.length_append,
    Bytes.overwrite_overwrite_append, Nat.add_assoc, Cursor.mk.injEq, true_and, and_true]
  omega

theorem fitBehind_nil (earlier : List Access) : FitBehind buffer start limit earlier [] :=
  fun _ _ _ heq => nomatch List.append_eq_nil_iff.mp heq.symm

theorem fitBehind_cons {earlier later : List Access} {a : Access} :
    FitBehind buffer start limit earlier (a :: later) ↔
      a.Fits (plain buffer start limit earlier) ∧
        FitBehind buffer start limit (earlier ++ [a]) later := by
  constructor
  · intro h
    refine ⟨by simpa using h [] a later rfl, fun front b back heq => ?_⟩
    simpa using h (a :: front) b back (heq ▸ rfl)
  · rintro ⟨hfits, hlater⟩ front b back heq
    rcases List.cons_eq_append_iff.mp heq with ⟨rfl, hsame⟩ | ⟨front, rfl, hback⟩
    · cases hsame
      simpa using hfits
    · simpa using hlater front b back hback

theorem accesses_of_failed {c : Cursor} {e : CursorError} (h : c.error = some e)
    (accesses : List Access) : c.accesses accesses = accesses.map fun a => (a.blank, c) := by
  induction accesses with
  | nil => rfl
  | cons a later ih => simp only [Cursor.accesses, access_of_failed h, ih, List.map_cons]

theorem accesses_of_misfit {c : Cursor} (h : c.error = none) {bad : Access} (hmisfit : ¬bad.Fits c)
    (later : List Access) : c.accesses (bad :: later) = c.latchedSteps (bad :: later) := by
  have hfailed : { c with error := some (bad.failure c) }.error = some (bad.failure c) := rfl
  simp only [Cursor.accesses, access_of_misfit h hmisfit, accesses_of_failed hfailed, latchedSteps,
    List.map_cons]

/-- A byte array on which an access fits has room for what it writes. -/
theorem placed_plain_concat {earlier : List Access}
    (h : (plain buffer start limit earlier).Placed buffer.length) {a : Access}
    (hfits : a.Fits (plain buffer start limit earlier)) :
    (plain buffer start limit earlier).access a =
        (a.answer (plain buffer start limit earlier), plain buffer start limit (earlier ++ [a])) ∧
      (plain buffer start limit (earlier ++ [a])).Placed buffer.length := by
  simp only [plain_concat]
  exact ⟨access_of_fits rfl h.writePos_le hfits, h.advance hfits⟩

/-- What is asked of a byte array is done up to the first access that does not fit, which is kept. -/
theorem exists_first_misfit {earlier : List Access}
    (h : (plain buffer start limit earlier).Placed buffer.length) (later : List Access) :
    ∃ done rest, later = done ++ rest ∧ FitBehind buffer start limit earlier done ∧
      (∀ bad ∈ rest.head?, ¬bad.Fits (plain buffer start limit (earlier ++ done))) ∧
      (plain buffer start limit earlier).accesses later =
        plainSteps buffer start limit earlier done ++
          latchedSteps (plain buffer start limit (earlier ++ done)) rest := by
  induction later generalizing earlier with
  | nil => exact ⟨[], [], rfl, fitBehind_nil _, by simp, rfl⟩
  | cons a later ih =>
      by_cases hfits : a.Fits (plain buffer start limit earlier)
      · obtain ⟨hstep, hplaced⟩ := placed_plain_concat h hfits
        obtain ⟨done, rest, rfl, hdone, hrest, hsteps⟩ := ih hplaced
        simp only [List.append_assoc, List.singleton_append] at hrest hsteps
        refine ⟨a :: done, rest, rfl, fitBehind_cons.mpr ⟨hfits, hdone⟩, hrest, ?_⟩
        simp only [Cursor.accesses, hstep, hsteps, plainSteps, List.cons_append]
      · refine ⟨[], a :: later, rfl, fitBehind_nil _, by simpa using hfits, ?_⟩
        simp only [plainSteps, List.append_nil, List.nil_append, accesses_of_misfit rfl hfits]

end

/-! ## Machine words -/

/-- The next `needed` bytes, with the sum and the slice checked. -/
def take? (c : Cursor) (needed : Nat) : Option (Option Bytes × Cursor) :=
  match c.error with
  | some _ => some (none, c)
  | none =>
      if UInt64.size ≤ c.readPos + needed then none
      else if c.limit < c.readPos + needed then
        some (none, { c with error := some (.exhausted needed c.readPos c.limit) })
      else do
        let bytes ← c.buffer.slice? c.readPos (c.readPos + needed)
        return (some bytes, { c with readPos := c.readPos + needed })

/-- Writes `data`, with the sum and the place checked. -/
def put? (data : Bytes) (c : Cursor) : Option Cursor :=
  match c.error with
  | some _ => some c
  | none =>
      if UInt64.size ≤ c.writePos + data.length then none
      else if c.buffer.length < c.writePos + data.length then
        some { c with error := some (.overflow data.length c.writePos c.buffer.length) }
      else do
        let buffer ← c.buffer.overwrite? c.writePos data
        return { c with
          buffer
          writePos := c.writePos + data.length
          limit := max c.limit (c.writePos + data.length) }

def access? (c : Cursor) : Access → Option (Option Nat × Cursor)
  | .read order width => do
      let (taken, next) ← c.take? width
      return (some (taken.elim 0 order.value), next)
  | .write order width value => return (none, ← c.put? (order.word width value))
  | .writeBytes data => return (none, ← c.put? data)

def accesses? (c : Cursor) : List Access → Option (List (Option Nat × Cursor))
  | [] => some []
  | a :: later => do
      let step ← c.access? a
      return step :: (← step.2.accesses? later)

/-- The most bytes that there are in one piece. -/
def mostBytes : Nat := 2 ^ 63 - 1

/-- A word of at most eight bytes, or bytes in one piece. -/
def Access.IsTyped : Access → Prop
  | .read _ width | .write _ width _ => width ≤ 8
  | .writeBytes data => data.length ≤ mostBytes

theorem take?_eq {c : Cursor} {needed : Nat} (hword : c.readPos + needed < UInt64.size)
    (hlimit : c.limit ≤ c.buffer.length) : c.take? needed = some (c.take needed) := by
  unfold take? take
  cases c.error with
  | some e => rfl
  | none =>
      simp only [if_neg (Nat.not_le.mpr hword)]
      split
      · rfl
      · rename_i hfits
        rw [Bytes.slice?_eq (Nat.le_add_right _ _) (by omega)]
        rfl

theorem put?_eq {c : Cursor} {data : Bytes} (hword : c.writePos + data.length < UInt64.size) :
    c.put? data = some (c.put data) := by
  unfold put? put
  cases c.error with
  | some e => rfl
  | none =>
      simp only [if_neg (Nat.not_le.mpr hword)]
      split
      · rfl
      · rename_i hroom
        rw [Bytes.overwrite?_eq (Nat.le_of_not_lt hroom)]
        rfl

/-- Within its buffer, a cursor computes no offset beyond a machine word. -/
theorem Placed.access?_eq {c : Cursor} {capacity : Nat} (h : c.Placed capacity)
    (hread : c.readPos + 8 < UInt64.size) (hbytes : capacity ≤ mostBytes) {a : Access}
    (ha : a.IsTyped) : c.access? a = some (c.access a) := by
  have hlimit : c.limit ≤ c.buffer.length := h.length_buffer ▸ h.limit_le
  have hwrite : c.writePos ≤ mostBytes :=
    Nat.le_trans h.writePos_le (Nat.le_trans h.limit_le hbytes)
  simp only [mostBytes, UInt64.size] at hwrite hread
  cases a with
  | read order width =>
      have hword : c.readPos + width < UInt64.size := by
        simp only [Access.IsTyped, UInt64.size] at ha ⊢
        omega
      simp only [access?, take?_eq hword hlimit, Cursor.access, readWord, Option.bind_eq_bind,
        Option.bind_some]
      cases c.take width with
      | mk taken next => cases taken <;> rfl
  | write order width value =>
      have hword : c.writePos + (order.word width value).length < UInt64.size := by
        simp only [Access.IsTyped, ByteOrder.length_word, UInt64.size] at ha ⊢
        omega
      simp only [access?, put?_eq hword, Cursor.access, writeWord, Option.bind_eq_bind, Option.bind_some]
      rfl
  | writeBytes data =>
      have hword : c.writePos + data.length < UInt64.size := by
        simp only [Access.IsTyped, mostBytes, UInt64.size] at ha ⊢
        omega
      simp only [access?, put?_eq hword, Cursor.access, Option.bind_eq_bind, Option.bind_some]
      rfl

theorem Placed.accesses?_eq {c : Cursor} {capacity : Nat} (h : c.Placed capacity)
    (hread : c.readPos + 8 < UInt64.size) (hbytes : capacity ≤ mostBytes) {accesses : List Access}
    (htyped : ∀ a ∈ accesses, a.IsTyped) : c.accesses? accesses = some (c.accesses accesses) := by
  induction accesses generalizing c with
  | nil => rfl
  | cons a later ih =>
      simp only [List.forall_mem_cons] at htyped
      have hnext : (c.access a).2.readPos + 8 < UInt64.size := by
        have hle := h.readPos_access_le a
        simp only [mostBytes, UInt64.size] at hbytes hread ⊢
        omega
      simp only [accesses?, h.access?_eq hread hbytes htyped.1, ih (h.access a) hnext htyped.2,
        Option.bind_eq_bind, Option.bind_some]
      rfl

/-! ## Whole sequences -/

/-- Among any accesses to a cursor, be it a reader of a part, of the whole buffer, or a writer, there
is a first that does not fit, or none. All before it are done as on a plain byte array: each reads
the value of the next bytes as last written, or writes at the write position and nowhere else. From
it on, the cursor reports its failure, reads zero, and stays as it was before. The limit stays
within the buffer, and so does every access, and if the first read of eight bytes would not end
beyond a machine word, no offset ever does. -/
theorem first_misfit_is_latched (buffer : Bytes) (start limit : Nat) (accesses : List Access) :
    let c := reader buffer start limit
    let plain := plain buffer start limit
    (∃ done rest, accesses = done ++ rest ∧
      (∀ earlier a later, done = earlier ++ a :: later →
        a.Fits (plain earlier) ∧
        (plain (earlier ++ [a])).buffer =
          (plain earlier).buffer.overwrite (plain earlier).writePos a.data) ∧
      c.accesses accesses =
        plainSteps buffer start limit [] done ++ latchedSteps (plain done) rest ∧
      ∀ bad ∈ rest.head?, ¬bad.Fits (plain done) ∧
        ∀ step ∈ latchedSteps (plain done) rest,
          step.2.error = some (bad.failure (plain done)) ∧
          step.2.finish = .error (bad.failure (plain done))) ∧
    (∀ step ∈ c.accesses accesses,
      step.2.limit ≤ buffer.length ∧ step.2.buffer.length = buffer.length) ∧
    (start + 8 < UInt64.size → buffer.length ≤ mostBytes → (∀ a ∈ accesses, a.IsTyped) →
      c.accesses? accesses = some (c.accesses accesses)) := by
  intro c plain
  have hplaced : c.Placed buffer.length := .reader buffer start limit
  obtain ⟨done, rest, hsplit, hdone, hrest, hsteps⟩ :=
    @exists_first_misfit buffer start limit [] (by rwa [plain_nil]) accesses
  rw [plain_nil] at hsteps
  refine ⟨⟨done, rest, hsplit, fun earlier a later heq => ?_, hsteps, fun bad hbad => ?_⟩, ?_, ?_⟩
  · exact ⟨hdone earlier a later heq, by simp only [plain, plain_concat, advance]⟩
  · refine ⟨hrest bad hbad, fun step hmem => ?_⟩
    obtain ⟨later, rfl⟩ := List.head?_eq_some_iff.mp hbad
    obtain ⟨a, _, rfl⟩ := List.mem_map.mp hmem
    exact ⟨rfl, rfl⟩
  · intro step hmem
    have hstep := hplaced.accesses accesses step hmem
    exact ⟨hstep.limit_le, hstep.length_buffer⟩
  · exact fun hread hbytes htyped => hplaced.accesses?_eq hread hbytes htyped

/-- A write that does not fit also stops a read that would. -/
example :
    (((writer [0, 0]).accesses [.write .big 1 7, .write .little 2 9, .read .big 1]).map Prod.fst,
      ((writer [0, 0]).after [.write .big 1 7, .write .little 2 9, .read .big 1])) =
      ([none, none, some 0], ⟨[7, 0], 0, 1, 1, some (.overflow 2 1 2)⟩) := by
  decide

end Cursor

end CabinetBus
