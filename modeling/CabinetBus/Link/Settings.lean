-- SUMMARY: Line parameters of a serial port and their JSON form.
import CabinetBus.Json.Schema

/-! # Serial settings -/

namespace CabinetBus

inductive DataBits where
  | five
  | six
  | seven
  | eight
  deriving DecidableEq, Repr

inductive Parity where
  | none
  | odd
  | even
  deriving DecidableEq, Repr

inductive StopBits where
  | one
  | two
  deriving DecidableEq, Repr

structure SerialSettings where
  portName : String
  baudRate : UInt32
  dataBits : DataBits
  parity : Parity
  stopBits : StopBits
  deriving DecidableEq, Repr

namespace DataBits

def name : DataBits → String
  | five => "five"
  | six => "six"
  | seven => "seven"
  | eight => "eight"

def all : List DataBits := [five, six, seven, eight]

def ofJson? : Json → Option DataBits := Json.choice? (all.map fun bits => (bits.name, bits))

def toJson (bits : DataBits) : Json := .ofString bits.name

end DataBits

namespace Parity

def name : Parity → String
  | none => "none"
  | odd => "odd"
  | even => "even"

def all : List Parity := [none, odd, even]

def ofJson? : Json → Option Parity := Json.choice? (all.map fun parity => (parity.name, parity))

def toJson (parity : Parity) : Json := .ofString parity.name

end Parity

namespace StopBits

def name : StopBits → String
  | one => "one"
  | two => "two"

def all : List StopBits := [one, two]

def ofJson? : Json → Option StopBits := Json.choice? (all.map fun bits => (bits.name, bits))

def toJson (bits : StopBits) : Json := .ofString bits.name

end StopBits

namespace SerialSettings

def defaultBaudRate : UInt32 := 115200

def default : SerialSettings :=
  { portName := "", baudRate := defaultBaudRate, dataBits := .eight, parity := .none,
    stopBits := .one }

def schema : Json.Schema SerialSettings :=
  [{ name := "port_name"
     read := fun j s => (Json.string? j).map fun v => { s with portName := v }
     write := fun s => .ofString s.portName },
   { name := "baud_rate"
     read := fun j s => (Json.uint32? j).map fun v => { s with baudRate := v }
     write := fun s => .ofNat s.baudRate.toNat },
   { name := "data_bits"
     read := fun j s => (DataBits.ofJson? j).map fun v => { s with dataBits := v }
     write := fun s => s.dataBits.toJson },
   { name := "parity"
     read := fun j s => (Parity.ofJson? j).map fun v => { s with parity := v }
     write := fun s => s.parity.toJson },
   { name := "stop_bits"
     read := fun j s => (StopBits.ofJson? j).map fun v => { s with stopBits := v }
     write := fun s => s.stopBits.toJson }]

def ofJson? (j : Json) : Option SerialSettings := schema.ofJson default j

def toJson (s : SerialSettings) : Json := schema.toJson s

end SerialSettings

end CabinetBus
