-- SUMMARY: The 16-bit cyclic redundancy check that closes every frame.
import CabinetBus.Bytes.Basic

/-! # Frame checksum

A shift register of 16 bits, all ones at first, is fed the bits of the body,
most significant bit of each byte first. Whenever the bit shifted out differs
from the bit fed in, the generator `x^12 + x^5 + 1` is added. -/

namespace CabinetBus.Frame.Checksum

def generator : BitVec 16 := 0x1021

def initial : BitVec 16 := 0xFFFF

/-- Feeds one bit to the register. -/
def shift (register : BitVec 16) (bit : Bool) : BitVec 16 :=
  if register.msb != bit then (register <<< 1) ^^^ generator else register <<< 1

/-- The bits of a byte, most significant first. -/
def bitsOf (b : UInt8) : List Bool :=
  [b.toBitVec.getLsbD 7, b.toBitVec.getLsbD 6, b.toBitVec.getLsbD 5, b.toBitVec.getLsbD 4,
   b.toBitVec.getLsbD 3, b.toBitVec.getLsbD 2, b.toBitVec.getLsbD 1, b.toBitVec.getLsbD 0]

def feed (register : BitVec 16) (b : UInt8) : BitVec 16 := (bitsOf b).foldl shift register

/-- The checksum of a byte string. -/
def of (bytes : Bytes) : BitVec 16 := bytes.foldl feed initial

/-- The two bytes of a checksum, high byte first. -/
def bytes (register : BitVec 16) : Bytes :=
  [UInt8.ofBitVec (register.extractLsb' 8 8), UInt8.ofBitVec (register.extractLsb' 0 8)]

/-- The checksum that two bytes carry, high byte first. -/
def ofBytes (high low : UInt8) : BitVec 16 := high.toBitVec ++ low.toBitVec

/-! ## Laws -/

@[simp] theorem length_bytes (register : BitVec 16) : (bytes register).length = 2 := rfl

end CabinetBus.Frame.Checksum
