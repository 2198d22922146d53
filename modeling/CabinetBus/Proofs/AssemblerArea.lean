-- SUMMARY: The area of the assembler, with every access checked, and how it shows the pending bytes.
import CabinetBus.Proofs.Assembling
import CabinetBus.Proofs.InBounds

/-!
# The area of the assembler

The pending bytes lie in an area of fixed size between two positions, and move to its front when a
chunk would not fit behind them. Here the area is written out in full, with the bytes that nobody
reads, and there is no answer if an offset lies outside of it or if a difference would be negative.
An area between two operations shows an assembler, and each operation on it answers as the assembler
does and shows again what the assembler has then.
-/

namespace CabinetBus.Frame

/-! ## The area -/

/-- An area, and the positions between which the pending bytes lie. -/
structure Area where
  buffer : Bytes
  readPos : Nat
  writePos : Nat
  deriving DecidableEq, Repr

namespace Area

def ofCapacity (capacity : Nat) : Area := ⟨Bytes.zeros capacity, 0, 0⟩

def pending (s : Area) : Bytes := s.buffer.slice s.readPos s.writePos

def length? (s : Area) : Option Nat := s.writePos.psub s.readPos

def tailRoom? (s : Area) : Option Nat := s.buffer.length.psub s.writePos

def totalRoom? (s : Area) : Option Nat := do return (← s.tailRoom?) + s.readPos

def reset (s : Area) : Area := { s with readPos := 0, writePos := 0 }

/-- Copies the pending bytes to the front, over what may be some of them. -/
def compact? (s : Area) : Option Area := do
  let buffer ← s.buffer.overwrite? 0 (← s.buffer.slice? s.readPos s.writePos)
  return ⟨buffer, 0, ← s.length?⟩

def makeRoom? (s : Area) (incoming : Nat) : Option Area := do
  if (← s.tailRoom?) < incoming ∧ incoming ≤ (← s.totalRoom?) then s.compact? else return s

def append? (s : Area) (data : Bytes) : Option (Except AssemblerOverflow Unit × Area) := do
  let roomy ← s.makeRoom? data.length
  if (← roomy.tailRoom?) < data.length then
    return (.error ⟨data.length, ← roomy.totalRoom?⟩, roomy)
  else
    let buffer ← roomy.buffer.overwrite? roomy.writePos data
    return (.ok (), { roomy with buffer, writePos := roomy.writePos + data.length })

def push? (s : Area) (chunk : Bytes) : Option (Except AssemblerOverflow Unit × Area) := do
  if (← s.length?) = 0 then
    match chunk.dropWhile (· != startMarker) with
    | [] => return (.ok (), s.reset)
    | data => s.append? data
  else s.append? chunk

/-- Looks at the bytes at the given offsets in order, knowing whether a frame has begun and whether
the byte before was its escape marker. The read position moves along with the pass: over what is
before a frame, to each start marker, and behind the frame that is given out. -/
def seek? (s : Area) (begun escaped : Bool) : List Nat → Option (Option Bytes × Area)
  | [] => some (none, if begun then s else s.reset)
  | n :: rest => do
      let b ← s.buffer[n]?
      if escaped then seek? s begun false rest
      else if b = startMarker then seek? { s with readPos := n } true false rest
      else if b = endMarker ∧ begun then
        let frame ← s.buffer.slice? s.readPos (n + 1)
        return (some frame, if s.writePos ≤ n + 1 then s.reset else { s with readPos := n + 1 })
      else if b = escapeMarker ∧ begun then seek? s begun true rest
      else if begun then seek? s begun false rest
      else seek? { s with readPos := n + 1 } begun false rest

def pop? (s : Area) : Option (Option Bytes × Area) :=
  s.seek? false false (List.range' s.readPos (s.writePos - s.readPos))

end Area

/-! ## Areas laid out -/

namespace Area

/-- Pending bytes between bytes that nobody reads, and how far into them reading has come. -/
def laidAt (front pending free : Bytes) (start : Nat) : Area :=
  ⟨front ++ pending ++ free, front.length + start, front.length + pending.length⟩

def laid (front pending free : Bytes) : Area := laidAt front pending free 0

/-- What has been read joins what is before it. -/
theorem laidAt_eq_laid {front pending free : Bytes} {start : Nat} (h : start ≤ pending.length) :
    laidAt front pending free start =
      laid (front ++ pending.take start) (pending.drop start) free := by
  have hfront : (front ++ pending.take start).length = front.length + start := by
    rw [List.length_append, List.length_take_of_le h]
  have hstop : front.length + start + (pending.drop start).length =
      front.length + pending.length := by
    rw [List.length_drop]
    omega
  rw [laid, laidAt, laidAt, hfront, hstop, Nat.add_zero,
    List.append_assoc front (pending.take start), List.take_append_drop]

variable (front pending free : Bytes)

theorem length_buffer_laid : (laid front pending free).buffer.length =
    front.length + pending.length + free.length := by
  rw [laid, laidAt, List.length_append, List.length_append]

/-- The area holds the pending bytes where they are looked for. -/
theorem slice?_laidAt {start stop : Nat} (hstart : start ≤ stop) (hstop : stop ≤ pending.length) :
    (laidAt front pending free start).buffer.slice? (laidAt front pending free start).readPos
      (front.length + stop) = some (pending.slice start stop) := by
  have hread : (laidAt front pending free start).readPos = front.length + start := rfl
  have hlength : (laidAt front pending free start).buffer.length =
      front.length + pending.length + free.length := length_buffer_laid front pending free
  rw [hread, Bytes.slice?_eq (by omega) (by omega), laidAt, Bytes.slice, List.append_assoc,
    List.take_length_add_append, List.drop_length_add_append,
    List.take_append_of_le_length hstop, Bytes.slice]

theorem slice?_pending_laid :
    (laid front pending free).buffer.slice? (laid front pending free).readPos
      (laid front pending free).writePos = some pending := by
  have hslice := slice?_laidAt front pending free (Nat.zero_le _) (Nat.le_refl pending.length)
  rwa [Bytes.slice, List.drop_zero, List.take_length] at hslice

theorem length?_laid : (laid front pending free).length? = some pending.length := by
  rw [length?, laid, laidAt, Nat.add_zero, Nat.psub_eq_sub (Nat.le_add_right _ _),
    Nat.add_sub_cancel_left]

theorem tailRoom?_laid : (laid front pending free).tailRoom? = some free.length := by
  rw [tailRoom?, length_buffer_laid, laid, laidAt, Nat.psub_eq_sub (Nat.le_add_right _ _),
    Nat.add_sub_cancel_left]

theorem totalRoom?_laid :
    (laid front pending free).totalRoom? = some (free.length + front.length) := by
  rw [totalRoom?, tailRoom?_laid]
  rfl

/-- Moved to the front, the pending bytes leave as much room as there was in all. -/
theorem compact?_laid : ∃ left : Bytes,
    (laid front pending free).compact? = some (laid [] pending left) ∧
      left.length = free.length + front.length := by
  have hcopy : (laid front pending free).buffer.overwrite? 0 pending =
      some (pending ++ (laid front pending free).buffer.drop pending.length) := by
    rw [Bytes.overwrite?_eq (by rw [length_buffer_laid]; omega)]
    simp [Bytes.overwrite]
  refine ⟨(laid front pending free).buffer.drop pending.length, ?_, ?_⟩
  · simp only [compact?, slice?_pending_laid, hcopy, length?_laid, Option.bind_eq_bind,
      Option.bind_some]
    simp [laid, laidAt]
  · rw [List.length_drop, length_buffer_laid]
    omega

/-- Bytes for which there is room behind the pending bytes join them. -/
theorem overwrite?_laid {data : Bytes} (h : data.length ≤ free.length) :
    (laid front pending free).buffer.overwrite? (laid front pending free).writePos data =
      some (laid front (pending ++ data) (free.drop data.length)).buffer := by
  have hwrite : (laid front pending free).writePos = (front ++ pending).length := by
    rw [laid, laidAt, List.length_append]
  rw [hwrite, laid, laidAt, Bytes.overwrite?_eq (by simp only [List.length_append]; omega),
    Bytes.overwrite_append]
  simp [laid, laidAt]

end Area

/-! ## What an area shows -/

namespace Area

/-- The assembler that has the same bytes pending as an area laid out. -/
def shown (front pending free : Bytes) : Assembler :=
  ⟨front.length + pending.length + free.length, front.length, pending⟩

/-- An area that shows the pending bytes of an assembler at its read position, which is the front
of the area when there are none. -/
inductive Shows : Area → Assembler → Prop where
  | intro (front pending free : Bytes) : (pending = [] → front = []) →
      Shows (laid front pending free) (shown front pending free)

variable {s : Area} {a : Assembler}

theorem shows_ofCapacity (capacity : Nat) :
    (ofCapacity capacity).Shows (.withCapacity capacity) := by
  have hshows := Shows.intro [] [] (Bytes.zeros capacity) (fun _ => rfl)
  simpa [laid, laidAt, shown, ofCapacity, Assembler.withCapacity] using hshows

theorem shows_reset (front pending free : Bytes) (start : Nat) :
    (laidAt front pending free start).reset.Shows (shown front pending free).clear := by
  have hshows := Shows.intro [] [] (front ++ pending ++ free) (fun _ => rfl)
  simpa [laid, laidAt, shown, reset, Assembler.clear, ← Nat.add_assoc] using hshows

theorem Shows.reset (h : s.Shows a) : s.reset.Shows a.clear := by
  obtain ⟨front, pending, free, _⟩ := h
  exact shows_reset front pending free 0

theorem Shows.length? (h : s.Shows a) : s.length? = some a.length := by
  obtain ⟨front, pending, free, _⟩ := h
  exact length?_laid front pending free

theorem Shows.tailRoom? (h : s.Shows a) : s.tailRoom? = some a.tailRoom := by
  obtain ⟨front, pending, free, _⟩ := h
  rw [tailRoom?_laid, shown, Assembler.tailRoom, Assembler.writePos, Assembler.length,
    Nat.add_sub_cancel_left]

theorem Shows.totalRoom? (h : s.Shows a) : s.totalRoom? = some a.totalRoom := by
  rw [Area.totalRoom?, h.tailRoom?, Assembler.totalRoom]
  obtain ⟨front, pending, free, _⟩ := h
  rfl

theorem Shows.compact? (h : s.Shows a) : ∃ t, s.compact? = some t ∧ t.Shows a.compact := by
  obtain ⟨front, pending, free, _⟩ := h
  obtain ⟨left, hcompact, hleft⟩ := compact?_laid front pending free
  refine ⟨_, hcompact, ?_⟩
  have hshows := Shows.intro [] pending left (fun _ => rfl)
  have hcapacity : 0 + pending.length + left.length =
      front.length + pending.length + free.length := by omega
  rwa [shown, List.length_nil, hcapacity] at hshows

/-- Moving the pending bytes to the front leaves all the room there is behind them. -/
theorem Shows.totalRoom_eq (h : s.Shows a) : a.totalRoom = a.compact.tailRoom := by
  obtain ⟨front, pending, free, _⟩ := h
  simp only [shown, Assembler.totalRoom, Assembler.tailRoom, Assembler.writePos, Assembler.length,
    Assembler.compact]
  omega

theorem Shows.overwrite? (h : s.Shows a) {data : Bytes} (hroom : data.length ≤ a.tailRoom) :
    ∃ buffer, s.buffer.overwrite? s.writePos data = some buffer ∧
      Shows { s with buffer, writePos := s.writePos + data.length }
        { a with pending := a.pending ++ data } := by
  have htail := h.tailRoom?
  obtain ⟨front, pending, free, hfront⟩ := h
  rw [tailRoom?_laid] at htail
  rw [← Option.some.inj htail] at hroom
  refine ⟨_, overwrite?_laid front pending free hroom, ?_⟩
  have hshows := Shows.intro front (pending ++ data) (free.drop data.length)
    (fun hnil => hfront (List.append_eq_nil_iff.mp hnil).1)
  have hcapacity : front.length + (pending.length + data.length) + (free.length - data.length) =
      front.length + pending.length + free.length := by omega
  have hstop : (laid front pending free).writePos + data.length =
      (laid front (pending ++ data) (free.drop data.length)).writePos := by
    simp [laid, laidAt, Nat.add_assoc]
  rw [shown, List.length_append, List.length_drop, hcapacity] at hshows
  rwa [hstop]

/-! ## Taking in -/

/-- What the area answers to bytes that are taken in: what the assembler does, and then it shows
what the assembler has then, or is as it was. -/
def Follows (s : Area) (answer : Option (Except AssemblerOverflow Unit × Area)) :
    Except AssemblerOverflow Assembler → Prop
  | .ok b => ∃ t, answer = some (.ok (), t) ∧ t.Shows b
  | .error e => answer = some (.error e, s)

theorem Shows.append (h : s.Shows a) (data : Bytes) :
    s.Follows (s.append? data) (a.append data) := by
  simp only [append?, makeRoom?, h.tailRoom?, h.totalRoom?, Assembler.append, Assembler.makeRoom,
    Option.bind_eq_bind, Option.bind_some]
  -- Moved bytes leave room for the data; without a move the area is as it was if there is none.
  by_cases hmove : a.tailRoom < data.length ∧ data.length ≤ a.totalRoom
  · obtain ⟨t, hcompact, ht⟩ := h.compact?
    have hroom : data.length ≤ a.compact.tailRoom := h.totalRoom_eq ▸ hmove.2
    obtain ⟨buffer, hwrite, hafter⟩ := ht.overwrite? hroom
    simp only [if_pos hmove, hcompact, ht.tailRoom?, Option.bind_some,
      if_neg (Nat.not_lt.mpr hroom), hwrite]
    exact ⟨_, rfl, hafter⟩
  · simp only [if_neg hmove, Option.pure_def, Option.bind_some, h.tailRoom?, h.totalRoom?]
    split
    · rfl
    · rename_i hroom
      obtain ⟨buffer, hwrite, hafter⟩ := h.overwrite? (Nat.not_lt.mp hroom)
      simp only [hwrite, Option.bind_some]
      exact ⟨_, rfl, hafter⟩

theorem Shows.push (h : s.Shows a) (chunk : Bytes) :
    s.Follows (s.push? chunk) (a.push chunk) := by
  have hempty : a.isEmpty = true ↔ a.length = 0 := by
    rw [Assembler.isEmpty, List.isEmpty_iff, Assembler.length, List.length_eq_zero_iff]
  simp only [push?, h.length?, Assembler.push, hempty, Option.bind_eq_bind, Option.bind_some]
  split
  · cases hdata : chunk.dropWhile (· != startMarker) with
    | nil => exact ⟨s.reset, rfl, h.reset⟩
    | cons b data => exact h.append (b :: data)
  · exact h.append chunk

end Area

/-! ## Giving out -/

/-- What a pop gives out and leaves, by what its pass finds. -/
def Assembler.giveOut (a : Assembler) : Found → Option Bytes × Assembler
  | .frame start stop => (some (a.pending.slice start (stop + 1)), a.skip (stop + 1))
  | .begun start => (none, a.skip start)
  | .nothing => (none, a.clear)

theorem Assembler.pop_eq_giveOut (a : Assembler) :
    a.pop = a.giveOut (seek a.pending 0 none false) := by
  unfold pop
  cases seek a.pending 0 none false <;> rfl

namespace Area

variable (front pending free : Bytes)

/-- With fewer bytes read than are pending, the others are pending still. -/
theorem shows_laidAt {count : Nat} (h : count < pending.length) :
    (laidAt front pending free count).Shows ((shown front pending free).skip count) := by
  have hleft : (pending.drop count).length ≠ 0 := by
    rw [List.length_drop]
    omega
  have hnil : pending.drop count ≠ [] := fun hnil => hleft (congrArg List.length hnil)
  have hshows := Shows.intro (front ++ pending.take count) (pending.drop count) free
    (fun hempty => absurd hempty hnil)
  have hcapacity : front.length + count + (pending.length - count) + free.length =
      front.length + pending.length + free.length := by omega
  rw [← laidAt_eq_laid (Nat.le_of_lt h), shown, List.length_append,
    List.length_take_of_le (Nat.le_of_lt h), List.length_drop, hcapacity] at hshows
  rw [Assembler.skip, if_neg (by rwa [List.isEmpty_iff])]
  exact hshows

/-- Behind a frame the others are pending still, or none are and the area is used from its front
again. -/
theorem shows_behind (start count : Nat) :
    Shows (if (laidAt front pending free start).writePos ≤ front.length + count then
        (laidAt front pending free start).reset
      else { laidAt front pending free start with readPos := front.length + count })
      ((shown front pending free).skip count) := by
  split
  · rename_i hall
    have hnone : pending.drop count = [] :=
      List.drop_eq_nil_of_le (Nat.add_le_add_iff_left.mp hall)
    rw [Assembler.skip, if_pos (by rw [shown, hnone]; rfl)]
    exact shows_reset front pending free start
  · rename_i hsome
    exact shows_laidAt front pending free
      (Nat.lt_of_not_le fun hle => hsome (Nat.add_le_add_left hle _))

/-- The pass over the area finds what the pass over the pending bytes finds. Until it has seen a
start marker its read position is where it looks. -/
theorem seek?_laidAt (rest : Bytes) {seen : Bytes} {start : Option Nat} {escaped : Bool}
    (hstart : ∀ n ∈ start, n < seen.length) (hescaped : start = none → escaped = false) :
    ∃ t, (laidAt front (seen ++ rest) free (start.getD seen.length)).seek? start.isSome escaped
        (List.range' (front.length + seen.length) rest.length) =
          some (((shown front (seen ++ rest) free).giveOut
            (Assembler.seek rest seen.length start escaped)).1, t) ∧
      t.Shows ((shown front (seen ++ rest) free).giveOut
        (Assembler.seek rest seen.length start escaped)).2 := by
  induction rest generalizing seen start escaped with
  | nil =>
      rw [List.append_nil]
      cases start with
      | none => exact ⟨_, rfl, shows_reset front seen free seen.length⟩
      | some n => exact ⟨_, rfl, shows_laidAt front seen free (hstart n rfl)⟩
  | cons b rest ih =>
      have hnext {start : Option Nat} {escaped : Bool}
          (hstart : ∀ n ∈ start, n < seen.length + 1) (hescaped : start = none → escaped = false) :=
        @ih (seen ++ [b]) start escaped (by simpa using hstart) hescaped
      simp only [List.append_assoc, List.singleton_append, List.length_append,
        List.length_singleton] at hnext
      have hbyte (start : Nat) : (laidAt front (seen ++ b :: rest) free start).buffer[
          front.length + seen.length]? = some b := by
        simp [laidAt]
      rw [List.length_cons, List.range'_succ]
      simp only [seek?, Assembler.seek, hbyte, Option.bind_eq_bind, Option.bind_some]
      cases start with
      | none =>
          cases hescaped rfl
          simp only [Bool.false_eq_true, if_false, Option.isSome_none, and_false]
          -- The read position goes to the marker, or past a byte that belongs to no frame.
          split
          · exact @hnext (some seen.length) false (by simp) (by simp)
          · exact @hnext none false (by simp) (by simp)
      | some n =>
          have hn : n < seen.length + 1 := Nat.lt_succ_of_lt (hstart n rfl)
          simp only [Option.isSome_some, and_true]
          split
          · exact @hnext (some n) false (by simpa using hn) (by simp)
          · split
            · exact @hnext (some seen.length) false (by simp) (by simp)
            · split
              · have hframe := slice?_laidAt front (seen ++ b :: rest) free (Nat.le_of_lt hn)
                  (by simp)
                rw [← Nat.add_assoc] at hframe
                simp only [Option.getD_some, hframe, Option.bind_some]
                exact ⟨_, rfl, shows_behind front _ free n (seen.length + 1)⟩
              · by_cases hescape : b = escapeMarker
                · have hbeq : (b == escapeMarker) = true := beq_iff_eq.mpr hescape
                  simp only [if_pos hescape, hbeq]
                  exact @hnext (some n) true (by simpa using hn) (by simp)
                · have hbeq : (b == escapeMarker) = false := beq_eq_false_iff_ne.mpr hescape
                  simp only [if_neg hescape, hbeq, if_true]
                  exact @hnext (some n) false (by simpa using hn) (by simp)

theorem Shows.pop {s : Area} {a : Assembler} (h : s.Shows a) :
    ∃ t, s.pop? = some (a.pop.1, t) ∧ t.Shows a.pop.2 := by
  obtain ⟨front, pending, free, _⟩ := h
  have hpass := @seek?_laidAt front free pending [] none false (by simp) (fun _ => rfl)
  have hcount : (laid front pending free).writePos - (laid front pending free).readPos =
      pending.length := Nat.add_sub_cancel_left ..
  rw [pop?, hcount, Assembler.pop_eq_giveOut]
  exact hpass

end Area

end CabinetBus.Frame
