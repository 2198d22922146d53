-- SUMMARY: Unsigned words as byte strings in big- and little-endian order.
import CabinetBus.Bytes.Basic

/-! # Words

A word of `width` bytes is its value in base 256. The little-endian form puts
the least significant byte first; the big-endian form is its reverse. -/

namespace CabinetBus

inductive ByteOrder where
  | big
  | little
  deriving DecidableEq, Repr

namespace Bytes

/-- The value of a byte string read least significant byte first. -/
def littleValue : Bytes → Nat
  | [] => 0
  | b :: rest => b.toNat + 256 * littleValue rest

/-- The lowest `width` base-256 digits of `value`, least significant first. -/
def littleWord : Nat → Nat → Bytes
  | 0, _ => []
  | width + 1, value => UInt8.ofNat value :: littleWord width (value / 256)

end Bytes

namespace ByteOrder

/-- The value of a byte string in this order. -/
def value : ByteOrder → Bytes → Nat
  | big, bytes => Bytes.littleValue bytes.reverse
  | little, bytes => Bytes.littleValue bytes

/-- The `width` bytes of `value` in this order; higher digits are dropped. -/
def word (order : ByteOrder) (width value : Nat) : Bytes :=
  match order with
  | big => (Bytes.littleWord width value).reverse
  | little => Bytes.littleWord width value

end ByteOrder

/-! ## Laws -/

namespace Bytes

@[simp] theorem length_littleWord (width value : Nat) :
    (littleWord width value).length = width := by
  induction width generalizing value with
  | zero => rfl
  | succ width ih => simp [littleWord, ih]

end Bytes

namespace ByteOrder

@[simp] theorem length_word (order : ByteOrder) (width value : Nat) :
    (order.word width value).length = width := by
  cases order <;> simp [word]

end ByteOrder

end CabinetBus
