-- SUMMARY: The settings of the service and the poller, loaded from and saved as a JSON file.
import CabinetBus.Bytes.Basic
import CabinetBus.Error
import CabinetBus.Json.Printer
import CabinetBus.Json.Reader
import CabinetBus.Link.Settings

/-! # Configuration

Every field has a default, so a partial file, or an empty object, loads into a
working configuration. A saved file gives all fields in order. -/

namespace CabinetBus

structure Config where
  serial : SerialSettings
  /-- When false the service does not start. -/
  enabled : Bool
  /-- Every how many attempts to reconnect the port is tried. -/
  retryEvery : UInt32
  readTimeoutMs : UInt64
  reconnectIntervalMs : UInt64
  /-- Messages that may wait for the writer. -/
  writeQueueCapacity : UInt64
  /-- Bytes that may wait for the end of their frame. -/
  assemblerCapacity : UInt64
  staticRequestEveryMs : UInt64
  pollCycleMs : UInt64
  deriving DecidableEq, Repr

namespace Config

def default : Config :=
  { serial := .default
    enabled := true
    retryEvery := 3
    readTimeoutMs := 1000
    reconnectIntervalMs := 1000
    writeQueueCapacity := 5
    assemblerCapacity := 2048
    staticRequestEveryMs := 10000
    pollCycleMs := 100 }

def schema : Json.Schema Config :=
  [{ name := "serial"
     read := fun j c => (SerialSettings.ofJson? j).map fun v => { c with serial := v }
     write := fun c => c.serial.toJson },
   { name := "enabled"
     read := fun j c => (Json.bool? j).map fun v => { c with enabled := v }
     write := fun c => .bool c.enabled },
   { name := "retry_every"
     read := fun j c => (Json.uint32? j).map fun v => { c with retryEvery := v }
     write := fun c => .ofNat c.retryEvery.toNat },
   { name := "read_timeout_ms"
     read := fun j c => (Json.uint64? j).map fun v => { c with readTimeoutMs := v }
     write := fun c => .ofNat c.readTimeoutMs.toNat },
   { name := "reconnect_interval_ms"
     read := fun j c => (Json.uint64? j).map fun v => { c with reconnectIntervalMs := v }
     write := fun c => .ofNat c.reconnectIntervalMs.toNat },
   { name := "write_queue_capacity"
     read := fun j c => (Json.uint64? j).map fun v => { c with writeQueueCapacity := v }
     write := fun c => .ofNat c.writeQueueCapacity.toNat },
   { name := "assembler_capacity"
     read := fun j c => (Json.uint64? j).map fun v => { c with assemblerCapacity := v }
     write := fun c => .ofNat c.assemblerCapacity.toNat },
   { name := "static_request_every_ms"
     read := fun j c => (Json.uint64? j).map fun v => { c with staticRequestEveryMs := v }
     write := fun c => .ofNat c.staticRequestEveryMs.toNat },
   { name := "executor_cycle_ms"
     read := fun j c => (Json.uint64? j).map fun v => { c with pollCycleMs := v }
     write := fun c => .ofNat c.pollCycleMs.toNat }]

def ofText? (text : String) : Option Config :=
  (Json.parse text).bind (schema.ofJson default)

def toText (c : Config) : String := Json.indented (schema.toJson c)

/-- Loads the bytes of a file, or says that there is no file. Bytes that are no UTF-8
and text that is no configuration are invalid data. -/
def load (file : Option Bytes) : Except IoKind Config :=
  match file with
  | none => .error .notFound
  | some bytes =>
      match String.fromUTF8? ⟨bytes.toArray⟩ with
      | none => .error .invalidData
      | some text =>
          match ofText? text with
          | none => .error .invalidData
          | some c => .ok c

/-- The bytes that a saved file holds. -/
def save (c : Config) : Bytes := c.toText.toUTF8.data.toList

end Config

end CabinetBus
