-- SUMMARY: A word written and read in the same order is its value, up to what its width holds.
import Mathlib.Algebra.GroupWithZero.Nat
import CabinetBus.Bytes.Word

/-!
# Values of words

Writing keeps the lowest base-256 digits of a value, as many as the word is wide.
Reading them in the same order gives the value back modulo that power of 256.
-/

namespace CabinetBus

namespace Bytes

theorem littleValue_littleWord (width value : Nat) :
    littleValue (littleWord width value) = value % 256 ^ width := by
  induction width generalizing value with
  | zero => simp [littleWord, littleValue, Nat.mod_one]
  | succ width ih =>
      have hb : (UInt8.ofNat value).toNat = value % 256 := by simp
      simp only [littleWord, littleValue, ih, hb, Nat.pow_succ]
      rw [Nat.mul_comm (256 ^ width) 256, Nat.mod_mul]

end Bytes

theorem ByteOrder.value_word (order : ByteOrder) (width value : Nat) :
    order.value (order.word width value) = value % 256 ^ width := by
  cases order <;> simp [ByteOrder.value, word, Bytes.littleValue_littleWord]

end CabinetBus
