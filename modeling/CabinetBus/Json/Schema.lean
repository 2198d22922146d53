-- SUMMARY: Records in JSON: named fields with defaults, read in any order and written in one.
import CabinetBus.Json.Basic

/-! # Records in JSON

A schema lists the fields of a record in order, each with a way to read it into a
record and to write it. One schema serves both directions.

A record is read from an object or from the list of its field values. What is not
given keeps its default. An unknown member is skipped, a known one may be given
once, and a list may stop early but not run on. -/

namespace CabinetBus.Json

/-! ## Scalars -/

/-- A number written without sign, fraction and exponent. -/
def nat? : Json → Option Nat
  | .number ⟨false, n, [], []⟩ => some n
  | _ => none

/-- Such a number below `bound`. -/
def natBelow? (bound : Nat) (value : Json) : Option Nat :=
  (nat? value).bind fun n => if n < bound then some n else none

def uint8? (value : Json) : Option UInt8 := (natBelow? UInt8.size value).map UInt8.ofNat

def uint32? (value : Json) : Option UInt32 := (natBelow? UInt32.size value).map UInt32.ofNat

def uint64? (value : Json) : Option UInt64 := (natBelow? UInt64.size value).map UInt64.ofNat

def bool? : Json → Option Bool
  | .bool b => some b
  | _ => none

def string? : Json → Option String
  | .string glyphs => text? glyphs
  | _ => none

/-- One of several named cases, written as its name or as an object whose only
member has that name and is null. -/
def choice? (options : List (String × α)) : Json → Option α
  | .string glyphs => (text? glyphs).bind fun name => options.lookup name
  | .object [(key, .null)] => (text? key).bind fun name => options.lookup name
  | _ => none

/-! ## Fields -/

/-- A field of records of type `σ`. -/
structure Field (σ : Type) where
  name : String
  read : Json → σ → Option σ
  write : σ → Json

abbrev Schema (σ : Type) : Type := List (Field σ)

namespace Schema

def toJson (schema : Schema σ) (record : σ) : Json :=
  .object (schema.map fun field => (glyphs field.name, field.write record))

/-- Reads members into a record; `seen` are the names of the fields read so far. -/
def ofMembers (schema : Schema σ) (seen : List String) :
    List (List Glyph × Json) → σ → Option σ
  | [], record => some record
  | (key, value) :: rest, record => do
      let name ← text? key
      match schema.find? (·.name == name) with
      | none => ofMembers schema seen rest record
      | some field =>
          if seen.contains name then none
          else do
            let next ← field.read value record
            ofMembers schema (name :: seen) rest next

/-- Reads field values in order. -/
def ofItems : Schema σ → List Json → σ → Option σ
  | _, [], record => some record
  | [], _ :: _, _ => none
  | field :: later, value :: rest, record => (field.read value record).bind (ofItems later rest)

def ofJson (schema : Schema σ) (default : σ) : Json → Option σ
  | .object members => ofMembers schema [] members default
  | .array items => ofItems schema items default
  | _ => none

end Schema

end CabinetBus.Json
