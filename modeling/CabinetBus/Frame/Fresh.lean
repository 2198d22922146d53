-- SUMMARY: Framing and unframing in a fresh buffer of a given capacity.
import CabinetBus.Frame.Framing
import CabinetBus.Frame.Unframing

/-! # Fresh buffers

A caller that has no buffer of its own names a capacity. The buffer made for it is
no larger than what the answer can depend on, however large the capacity is. -/

namespace CabinetBus.Frame

/-- A buffer full of `fill`, but for `payload` from offset `1` on, as far as it fits. -/
def freshBuffer (capacity : Nat) (fill : UInt8) (payload : Bytes) : Bytes :=
  (fill :: payload ++ List.replicate capacity fill).take capacity

/-- Frames the content at offsets `1` to `len - 1` of a fresh buffer. -/
def encodeFresh (capacity : Nat) (fill : UInt8) (payload : Bytes) (len : Nat) :
    Except FrameError Bytes :=
  (encode (freshBuffer (min capacity (escapeArea + 2)) fill payload) len).result

/-- Unframes `source` into a fresh buffer. -/
def decodeFresh (source : Bytes) (capacity : Nat) : Except FrameError Bytes :=
  (decodeInto source (Bytes.zeros (min capacity source.length))).result

/-! ## Laws -/

@[simp] theorem length_freshBuffer (capacity : Nat) (fill : UInt8) (payload : Bytes) :
    (freshBuffer capacity fill payload).length = capacity := by
  rw [freshBuffer, List.length_take, List.length_append, List.length_replicate,
    Nat.min_eq_left (by omega)]

/-- A smaller fresh buffer is the front of a larger one. -/
theorem freshBuffer_min (capacity limit : Nat) (fill : UInt8) (payload : Bytes) :
    freshBuffer (min capacity limit) fill payload =
      (freshBuffer capacity fill payload).take limit := by
  rw [freshBuffer, freshBuffer, List.take_take, Nat.min_comm limit, List.take_append,
    List.take_append, List.take_replicate, List.take_replicate]
  congr 2
  omega

theorem encodeFresh_eq (capacity : Nat) (fill : UInt8) (payload : Bytes) (len : Nat) :
    encodeFresh capacity fill payload len =
      (encode (freshBuffer capacity fill payload) len).result := by
  rw [encodeFresh, freshBuffer_min, result_encode_take]

theorem decodeFresh_eq (source : Bytes) (capacity : Nat) :
    decodeFresh source capacity = (decodeInto source (Bytes.zeros capacity)).result := by
  rw [decodeFresh, Nat.min_comm, ← Bytes.take_zeros, result_decodeInto_take]

end CabinetBus.Frame
