-- SUMMARY: Byte strings, and writing into a fixed buffer without changing its length.

/-! # Byte strings

A byte string is a plain list. Buffers of fixed capacity are byte strings that
are only ever overwritten in place, so their length is their capacity. -/

namespace CabinetBus

abbrev Bytes : Type := List UInt8

namespace Bytes

/-- `capacity` zero bytes. -/
def zeros (capacity : Nat) : Bytes := List.replicate capacity 0

/-- The bytes at offsets `start` to `stop - 1`. -/
def slice (buffer : Bytes) (start stop : Nat) : Bytes := (buffer.take stop).drop start

/-- Writes `data` over the bytes of `buffer` from `offset` on. -/
def overwrite (buffer : Bytes) (offset : Nat) (data : Bytes) : Bytes :=
  buffer.take offset ++ data ++ buffer.drop (offset + data.length)

/-! ## Laws -/

@[simp] theorem length_zeros (capacity : Nat) : (zeros capacity).length = capacity := by
  simp [zeros]

theorem length_slice (buffer : Bytes) (start stop : Nat) :
    (slice buffer start stop).length = min stop buffer.length - start := by
  simp [slice]

theorem length_overwrite {buffer data : Bytes} {offset : Nat}
    (h : offset + data.length ≤ buffer.length) :
    (overwrite buffer offset data).length = buffer.length := by
  simp only [overwrite, List.length_append, List.length_take, List.length_drop]
  omega

theorem take_overwrite {buffer data : Bytes} {offset : Nat}
    (h : offset + data.length ≤ buffer.length) :
    (overwrite buffer offset data).take offset = buffer.take offset := by
  have hlen : (buffer.take offset).length = offset := by
    rw [List.length_take]; omega
  rw [overwrite, List.append_assoc, List.take_append_of_le_length (by omega), List.take_take,
    Nat.min_self]

theorem drop_overwrite {buffer data : Bytes} {offset : Nat}
    (h : offset + data.length ≤ buffer.length) :
    (overwrite buffer offset data).drop (offset + data.length) =
      buffer.drop (offset + data.length) := by
  have hlen : (buffer.take offset ++ data).length = offset + data.length := by
    rw [List.length_append, List.length_take]; omega
  rw [overwrite, List.drop_append_of_le_length (by omega), ← hlen, List.drop_length,
    List.nil_append]

theorem slice_overwrite {buffer data : Bytes} {offset : Nat}
    (h : offset + data.length ≤ buffer.length) :
    slice (overwrite buffer offset data) offset (offset + data.length) = data := by
  have hhead : (buffer.take offset).length = offset := by
    rw [List.length_take]; omega
  have hlen : (buffer.take offset ++ data).length = offset + data.length := by
    rw [List.length_append, hhead]
  rw [slice, overwrite, ← hlen, List.take_append_of_le_length (Nat.le_refl _), List.take_length]
  conv => lhs; arg 1; rw [← hhead]
  simp

/-- Reading up to the end of what was written gives it behind what stood before. -/
theorem slice_overwrite_append {buffer data : Bytes} {start offset : Nat}
    (hstart : start ≤ offset) (h : offset + data.length ≤ buffer.length) :
    slice (overwrite buffer offset data) start (offset + data.length) =
      slice buffer start offset ++ data := by
  have hhead : (buffer.take offset).length = offset := by
    rw [List.length_take]; omega
  have hlen : (buffer.take offset ++ data).length = offset + data.length := by
    rw [List.length_append, hhead]
  rw [slice, overwrite, ← hlen, List.take_append_of_le_length (Nat.le_refl _), List.take_length,
    List.drop_append_of_le_length (by omega), slice]

theorem take_overwrite_zero (buffer data : Bytes) :
    (overwrite buffer 0 data).take data.length = data := by
  simp [overwrite]

/-- Bytes that are written one after another from the front are one piece there. -/
theorem overwrite_overwrite_append (buffer front back : Bytes) :
    (buffer.overwrite 0 front).overwrite front.length back =
      buffer.overwrite 0 (front ++ back) := by
  simp [overwrite, List.drop_append, ← List.append_assoc]

theorem slice_take {buffer : Bytes} {start stop count : Nat} (h : stop ≤ count) :
    slice (buffer.take count) start stop = slice buffer start stop := by
  rw [slice, slice, List.take_take, Nat.min_eq_left h]

theorem take_append_slice (buffer : Bytes) {start stop : Nat} (h : start ≤ stop) :
    buffer.take start ++ buffer.slice start stop = buffer.take stop := by
  have hfront : (buffer.take stop).take start = buffer.take start := by
    rw [List.take_take, Nat.min_eq_left h]
  rw [slice, ← hfront, List.take_append_drop]

theorem take_zeros (count capacity : Nat) :
    (zeros capacity).take count = zeros (min count capacity) := by
  simp [zeros, List.take_replicate]

end Bytes

end CabinetBus
