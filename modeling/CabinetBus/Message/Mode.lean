-- SUMMARY: The controller mode byte.
import CabinetBus.Text.Numeral

/-! # Controller mode

Bit 0 tells an ATC from a TS2 controller, bit 1 normal from safe operation, and
bit 7 that the watchdog is active. -/

namespace CabinetBus

structure Mode where
  bits : UInt8
  deriving DecidableEq, Repr, Inhabited

namespace Mode

def isAtc (m : Mode) : Bool := m.bits &&& 0x01 == 0x01

def isTs2 (m : Mode) : Bool := !m.isAtc

def isNormal (m : Mode) : Bool := m.bits &&& 0x02 == 0x02

def isSafe (m : Mode) : Bool := !m.isNormal

def isWatchdog (m : Mode) : Bool := m.bits &&& 0x80 != 0

def text (m : Mode) : String :=
  Text.binary 8 m.bits.toNat ++ ", " ++ toString m.bits.toNat ++
    (if m.isAtc then ",ATC" else ",TS2") ++
    (if m.isNormal then ",Normal" else ",Safe") ++
    (if m.isWatchdog then ",WDT" else "")

end Mode

end CabinetBus
