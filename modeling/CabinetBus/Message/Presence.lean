-- SUMMARY: Which bus interface units are installed, as flags, as a 64-bit mask and as text.

/-! # Presence of bus interface units

Four flag bits, one per unit. Spread out, each unit owns a quarter of a 64-bit
mask, the first unit the most significant one. -/

namespace CabinetBus

structure Presence where
  flags : UInt8
  deriving DecidableEq, Repr, Inhabited

namespace Presence

/-- The number of units that own a quarter of the mask. -/
def unitCount : Nat := 4

/-- True when the flag of unit `unit`, counted from zero, is set. -/
def isSet (p : Presence) (unit : Nat) : Bool := unit < 8 && p.flags.toNat.testBit unit

/-- The quarter of the mask that unit `unit` owns. -/
def quarter (unit : Nat) : UInt64 := 0xFFFF000000000000 >>> UInt64.ofNat (16 * unit)

def mask (p : Presence) : UInt64 :=
  (List.range unitCount).foldl
    (fun mask unit => if p.isSet unit then mask ||| quarter unit else mask) 0

/-- The mask in binary, one group of sixteen equal digits per unit. -/
def maskText (p : Presence) : String :=
  String.ofList ((List.range unitCount).flatMap fun unit =>
    List.replicate 16 (if p.isSet unit then '1' else '0'))

end Presence

end CabinetBus
