-- SUMMARY: Unframing, in place and into another buffer.
import CabinetBus.Frame.Check
import CabinetBus.Frame.Framing

/-! # Unframing

Unframing drops every escape marker and restores the byte after it. In place, only
the bytes between the markers are touched. Into another buffer the whole wire frame
is read through the same rule, so that an escape marker just before the end marker
also takes that with it. -/

namespace CabinetBus.Frame

/-! ## Unframing in place -/

/-- A buffer whose bytes before `target` are already unescaped. -/
structure InPlace where
  buffer : Array UInt8
  target : Nat
  escaped : Bool

namespace InPlace

def put (s : InPlace) (b : UInt8) : InPlace :=
  { buffer := s.buffer.setIfInBounds s.target b, target := s.target + 1, escaped := false }

/-- Takes the byte at offset `source` of the buffer as it now stands. -/
def step (s : InPlace) (source : Nat) : InPlace :=
  let b := s.buffer.getD source 0
  if s.escaped then s.put (b ^^^ escapeMask)
  else if b = escapeMarker then { s with escaped := true }
  else s.put b

/-- Unescapes the bytes between the two markers of a frame. -/
def ofFrame (buffer : Bytes) : InPlace :=
  (List.range' 1 (buffer.length - 2)).foldl step ⟨buffer.toArray, 1, false⟩

end InPlace

/-- Unframes a buffer in place; the unframed frame is the front of the buffer. -/
def decode (buffer : Bytes) : OnBuffer :=
  match checkMarkers buffer with
  | .error e => ⟨.error e, buffer⟩
  | .ok () =>
      let s := InPlace.ofFrame buffer
      let closed := (s.put endMarker).buffer.toList
      let decoded := closed.take (s.target + 1)
      match checkChecksum decoded with
      | .error e => ⟨.error e, closed⟩
      | .ok () => ⟨.ok decoded, closed⟩

/-! ## Unframing into another buffer -/

/-- Unescapes bytes as far as there is room, and says whether that was all of them.
Room for one more byte is asked for before every byte, an escape marker included. -/
def unescapeWithin : (room : Nat) → (escaped : Bool) → Bytes → Bytes × Bool
  | _, _, [] => ([], true)
  | 0, _, _ :: _ => ([], false)
  | room + 1, true, b :: rest =>
      let (bytes, complete) := unescapeWithin room false rest
      ((b ^^^ escapeMask) :: bytes, complete)
  | room + 1, false, b :: rest =>
      if b = escapeMarker then unescapeWithin (room + 1) true rest
      else
        let (bytes, complete) := unescapeWithin room false rest
        (b :: bytes, complete)

/-- Unframes `source` into `target`; the markers pass through the same unescaping
as the body. -/
def decodeInto (source target : Bytes) : OnBuffer :=
  match checkMarkers source with
  | .error e => ⟨.error e, target⟩
  | .ok () =>
      match unescapeWithin target.length false source with
      | (written, false) => ⟨.error .overflow, target.overwrite 0 written⟩
      | (decoded, true) =>
          match checkChecksum decoded with
          | .error e => ⟨.error e, target.overwrite 0 decoded⟩
          | .ok () => ⟨.ok decoded, target.overwrite 0 decoded⟩

/-! ## Laws -/

/-- Unescaping in place keeps the length of the buffer. -/
@[simp] theorem InPlace.size_put (s : InPlace) (b : UInt8) :
    (s.put b).buffer.size = s.buffer.size := by
  simp [put]

theorem InPlace.toList_put (s : InPlace) (b : UInt8) :
    (s.put b).buffer.toList = s.buffer.toList.set s.target b := by
  simp [put]

/-- What is unescaped fits into the room there was. -/
theorem length_unescapeWithin (room : Nat) (escaped : Bool) (source : Bytes) :
    (unescapeWithin room escaped source).1.length ≤ room := by
  fun_induction unescapeWithin room escaped source with
  | case1 => simp
  | case2 => simp
  | case3 room b rest bytes complete h ih => simp_all
  | case4 room rest ih => exact ih
  | case5 room b rest hb bytes complete h ih => simp_all

/-- Two rooms for as many bytes as there are give the same. -/
theorem unescapeWithin_eq_of_le {room other : Nat} {escaped : Bool} {source : Bytes}
    (hroom : source.length ≤ room) (hother : source.length ≤ other) :
    unescapeWithin room escaped source = unescapeWithin other escaped source := by
  induction source generalizing room other escaped with
  | nil => simp [unescapeWithin]
  | cons b rest ih =>
      rw [List.length_cons] at hroom hother
      obtain ⟨room, rfl⟩ := Nat.exists_eq_add_one_of_ne_zero (by omega : room ≠ 0)
      obtain ⟨other, rfl⟩ := Nat.exists_eq_add_one_of_ne_zero (by omega : other ≠ 0)
      have hrest (e : Bool) : unescapeWithin room e rest = unescapeWithin other e rest :=
        ih (by omega) (by omega)
      have hkept : unescapeWithin (room + 1) true rest = unescapeWithin (other + 1) true rest :=
        ih (by omega) (by omega)
      cases escaped <;> simp only [unescapeWithin, hrest, hkept]

/-- Room beyond the length of the source makes no difference. -/
theorem unescapeWithin_min (room : Nat) (escaped : Bool) (source : Bytes) :
    unescapeWithin (min room source.length) escaped source =
      unescapeWithin room escaped source := by
  by_cases h : source.length ≤ room
  · rw [Nat.min_eq_right h]
    exact unescapeWithin_eq_of_le (Nat.le_refl _) h
  · rw [Nat.min_eq_left (by omega)]

/-- The answer depends on the length of the target alone. -/
theorem result_decodeInto_congr {source target other : Bytes}
    (h : target.length = other.length) :
    (decodeInto source target).result = (decodeInto source other).result := by
  unfold decodeInto
  rw [h]
  split
  · rfl
  · split
    · rfl
    · split <;> rfl

/-- A target as long as the source is never too short. -/
theorem result_decodeInto_take (source target : Bytes) :
    (decodeInto source (target.take source.length)).result =
      (decodeInto source target).result := by
  unfold decodeInto
  rw [List.length_take, Nat.min_comm, unescapeWithin_min]
  split
  · rfl
  · split
    · rfl
    · split <;> rfl

end CabinetBus.Frame
