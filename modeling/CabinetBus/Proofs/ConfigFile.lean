-- SUMMARY: A record is read from what its schema wrote, and a configuration from its saved file.
import Mathlib.Data.List.Forall2
import CabinetBus.Config
import CabinetBus.Proofs.JsonText

/-!
# Saved configurations

A value that is written as JSON and a way to read it round-trip if reading gives the value back
from the document that its text is read as. This is said for scalars, for the fields of a record,
and for a record of such fields; a configuration is one. The text of the file is told apart from
the document by nothing but the spelling of control characters.
-/

namespace CabinetBus

namespace Json

/-! ## Parts of documents -/

theorem membersAreWritten_iff {members : List (List Glyph × Json)} :
    MembersAreWritten members ↔
      ∀ member ∈ members, (∀ g ∈ member.1, g.IsWritten) ∧ member.2.IsWritten := by
  induction members with
  | nil => simp [MembersAreWritten]
  | cons member rest ih => simp [MembersAreWritten, ih, and_assoc]

theorem spelledMembers_eq_map (members : List (List Glyph × Json)) :
    spelledMembers members =
      members.map fun member => (member.1.map Glyph.spelled, member.2.spelled) := by
  induction members with
  | nil => rfl
  | cons member rest ih => rw [spelledMembers, ih, List.map_cons]

theorem isWritten_of_mem_glyphs {text : String} {g : Glyph} (h : g ∈ glyphs text) :
    g.IsWritten := by
  obtain ⟨c, _, rfl⟩ := List.mem_map.mp h
  trivial

theorem text?_spelled_glyphs (text : String) :
    text? ((glyphs text).map Glyph.spelled) = some text := by
  have hsame := text?_glyphs text
  rwa [text?, ← chars?_map_spelled] at hsame

/-! ## Values -/

/-- What `write` writes can be written, and `read` gives it back. -/
structure RoundTrips {α : Type} (write : α → Json) (read : Json → Option α) : Prop where
  isWritten : ∀ a, (write a).IsWritten
  read_write : ∀ a, read (write a).spelled = some a

namespace RoundTrips

theorem string : RoundTrips ofString string? where
  isWritten _ := fun _ => isWritten_of_mem_glyphs
  read_write := text?_spelled_glyphs

theorem bool : RoundTrips Json.bool bool? where
  isWritten _ := trivial
  read_write _ := rfl

/-- A number without sign, fraction and exponent can be written. -/
theorem isWritten_ofNat (n : Nat) : (ofNat n).IsWritten :=
  ⟨by simp, .inl rfl⟩

theorem natBelow?_ofNat {bound n : Nat} (h : n < bound) :
    natBelow? bound (ofNat n).spelled = some n := if_pos h

theorem uint32 : RoundTrips (fun n : UInt32 => ofNat n.toNat) uint32? where
  isWritten n := isWritten_ofNat n.toNat
  read_write n := by rw [uint32?, natBelow?_ofNat n.toNat_lt, Option.map_some, UInt32.ofNat_toNat]

theorem uint64 : RoundTrips (fun n : UInt64 => ofNat n.toNat) uint64? where
  isWritten n := isWritten_ofNat n.toNat
  read_write n := by rw [uint64?, natBelow?_ofNat n.toNat_lt, Option.map_some, UInt64.ofNat_toNat]

/-- Cases are told by their names. -/
theorem choice {α : Type} {name : α → String} {options : List (String × α)}
    (h : ∀ a, options.lookup (name a) = some a) :
    RoundTrips (fun a => ofString (name a)) (choice? options) where
  isWritten _ := fun _ => isWritten_of_mem_glyphs
  read_write a := by
    change (text? ((glyphs (name a)).map Glyph.spelled)).bind _ = _
    rw [text?_spelled_glyphs]
    exact h a

end RoundTrips

/-! ## Fields -/

variable {σ : Type}

/-- What the field writes of one record it reads into another, where it then stands as `copy`
puts it there. -/
structure Field.Copies (field : Field σ) (copy : σ → σ → σ) : Prop where
  isWritten : ∀ record, (field.write record).IsWritten
  read_write : ∀ record other,
    field.read (field.write record).spelled other = some (copy record other)

/-- A field of a value that round-trips. -/
theorem RoundTrips.copies {α : Type} {write : α → Json} {read : Json → Option α}
    (h : RoundTrips write read) (name : String) (get : σ → α) (set : α → σ → σ) :
    Field.Copies ⟨name, fun j other => (read j).map fun a => set a other, fun r => write (get r)⟩
      fun record other => set (get record) other where
  isWritten record := h.isWritten (get record)
  read_write record other := by
    dsimp only
    rw [h.read_write]
    rfl

/-! ## Records -/

namespace Schema

/-- A member that is to give a field, with its name as it is written and its value. -/
structure Entry (σ : Type) where
  field : Field σ
  key : List Glyph
  value : Json

/-- The field is that of its name, and the key spells this name. -/
structure Entry.IsOf (entry : Entry σ) (schema : Schema σ) : Prop where
  found : schema.find? (·.name == entry.field.name) = some entry.field
  named : text? entry.key = some entry.field.name

/-- Members that each give another field are read one after another, in any order. -/
theorem ofMembers_entries {schema : Schema σ} {seen : List String} {record : σ}
    {entries : List (Entry σ)} (hentries : ∀ entry ∈ entries, entry.IsOf schema)
    (hnodup : (entries.map (·.field.name)).Nodup)
    (hseen : ∀ entry ∈ entries, entry.field.name ∉ seen) :
    schema.ofMembers seen (entries.map fun entry => (entry.key, entry.value)) record =
      entries.foldlM (fun record entry => entry.field.read entry.value record) record := by
  induction entries generalizing seen record with
  | nil => rfl
  | cons entry rest ih =>
      obtain ⟨hfresh, hnodup⟩ := List.nodup_cons.mp hnodup
      have hentry := hentries entry List.mem_cons_self
      have hnew : seen.contains entry.field.name = false := by
        simpa using hseen entry List.mem_cons_self
      rw [List.map_cons, List.foldlM_cons, ofMembers, hentry.named]
      dsimp only [Option.bind_eq_bind, Option.bind_some]
      rw [hentry.found]
      dsimp only
      rw [hnew, if_neg Bool.false_ne_true]
      cases entry.field.read entry.value record with
      | none => rfl
      | some next =>
          apply ih (fun other hother => hentries other (List.mem_cons_of_mem entry hother)) hnodup
          intro other hother hmem
          rcases List.mem_cons.mp hmem with hsame | hmem
          · exact hfresh (List.mem_map.mpr ⟨other, hother, hsame⟩)
          · exact hseen other (List.mem_cons_of_mem entry hother) hmem

/-- A schema with names of their own finds each of its fields. -/
theorem find?_of_mem {schema : Schema σ} (hnodup : (schema.map (·.name)).Nodup)
    {field : Field σ} (h : field ∈ schema) :
    schema.find? (·.name == field.name) = some field := by
  induction schema with
  | nil => cases h
  | cons other rest ih =>
      obtain ⟨hfresh, hnodup⟩ := List.nodup_cons.mp hnodup
      rcases List.mem_cons.mp h with rfl | hmem
      · exact List.find?_cons_of_pos (by simp)
      · have hne : other.name ≠ field.name := by
          intro hsame
          exact hfresh (List.mem_map.mpr ⟨field, hmem, hsame.symm⟩)
        rw [List.find?_cons_of_neg (by simpa using hne), ih hnodup hmem]

/-- Each field copies its value, and the copies of all fields make the record. -/
structure Copies (schema : Schema σ) (default : σ) (copies : List (σ → σ → σ)) : Prop where
  fields : List.Forall₂ Field.Copies schema copies
  nodup : (schema.map (·.name)).Nodup
  complete : ∀ record, copies.foldl (fun other copy => copy record other) default = record

theorem isWritten_of_mem {fields : List (Field σ)} {copies : List (σ → σ → σ)}
    (h : List.Forall₂ Field.Copies fields copies) {field : Field σ} (hfield : field ∈ fields)
    (record : σ) : (field.write record).IsWritten := by
  induction h with
  | nil => cases hfield
  | cons hcopies _ ih =>
      rcases List.mem_cons.mp hfield with rfl | hmem
      · exact hcopies.isWritten record
      · exact ih hmem

/-- Fields that are read from what they wrote copy their values one after another. -/
theorem foldlM_read_write {fields : List (Field σ)} {copies : List (σ → σ → σ)}
    (h : List.Forall₂ Field.Copies fields copies) (record other : σ) :
    fields.foldlM (fun other field => field.read (field.write record).spelled other) other =
      some (copies.foldl (fun other copy => copy record other) other) := by
  induction h generalizing other with
  | nil => rfl
  | cons hfield _ ih =>
      rw [List.foldlM_cons, hfield.read_write, List.foldl_cons, ← ih]
      rfl

/-- A record round-trips if its fields do. -/
theorem Copies.roundTrips {schema : Schema σ} {default : σ} {copies : List (σ → σ → σ)}
    (h : schema.Copies default copies) : RoundTrips schema.toJson (schema.ofJson default) where
  isWritten record := by
    refine membersAreWritten_iff.mpr fun member hmember => ?_
    obtain ⟨field, hfield, rfl⟩ := List.mem_map.mp hmember
    exact ⟨fun g => isWritten_of_mem_glyphs, isWritten_of_mem h.fields hfield record⟩
  read_write record := by
    let entries := schema.map fun field : Field σ =>
      (⟨field, (glyphs field.name).map Glyph.spelled, (field.write record).spelled⟩ : Entry σ)
    have hmembers : (schema.toJson record).spelled =
        .object (entries.map fun entry => (entry.key, entry.value)) := by
      rw [toJson, spelled, spelledMembers_eq_map, List.map_map, List.map_map]
      rfl
    have hentries : ∀ entry ∈ entries, entry.IsOf schema := by
      intro entry hentry
      obtain ⟨field, hfield, rfl⟩ := List.mem_map.mp hentry
      exact ⟨find?_of_mem h.nodup hfield, text?_spelled_glyphs field.name⟩
    have hnodup : (entries.map (·.field.name)).Nodup := by
      rw [List.map_map]
      exact h.nodup
    rw [hmembers, ofJson, ofMembers_entries hentries hnodup (by simp), List.foldlM_map,
      foldlM_read_write h.fields, h.complete]

end Schema

end Json

/-! ## Settings -/

theorem DataBits.roundTrips : Json.RoundTrips toJson ofJson? :=
  .choice fun bits => by cases bits <;> decide

theorem Parity.roundTrips : Json.RoundTrips toJson ofJson? :=
  .choice fun parity => by cases parity <;> decide

theorem StopBits.roundTrips : Json.RoundTrips toJson ofJson? :=
  .choice fun bits => by cases bits <;> decide

theorem SerialSettings.copies : schema.Copies default
    [fun s other => { other with portName := s.portName },
     fun s other => { other with baudRate := s.baudRate },
     fun s other => { other with dataBits := s.dataBits },
     fun s other => { other with parity := s.parity },
     fun s other => { other with stopBits := s.stopBits }] where
  fields :=
    .cons (Json.RoundTrips.string.copies "port_name" _ _) <|
    .cons (Json.RoundTrips.uint32.copies "baud_rate" _ _) <|
    .cons (DataBits.roundTrips.copies "data_bits" _ _) <|
    .cons (Parity.roundTrips.copies "parity" _ _) <|
    .cons (StopBits.roundTrips.copies "stop_bits" _ _) .nil
  nodup := by decide
  complete _ := rfl

theorem SerialSettings.roundTrips : Json.RoundTrips toJson ofJson? := copies.roundTrips

/-! ## Configurations -/

namespace Config

theorem copies : schema.Copies default
    [fun c other => { other with serial := c.serial },
     fun c other => { other with enabled := c.enabled },
     fun c other => { other with retryEvery := c.retryEvery },
     fun c other => { other with readTimeoutMs := c.readTimeoutMs },
     fun c other => { other with reconnectIntervalMs := c.reconnectIntervalMs },
     fun c other => { other with writeQueueCapacity := c.writeQueueCapacity },
     fun c other => { other with assemblerCapacity := c.assemblerCapacity },
     fun c other => { other with staticRequestEveryMs := c.staticRequestEveryMs },
     fun c other => { other with pollCycleMs := c.pollCycleMs }] where
  fields :=
    .cons (SerialSettings.roundTrips.copies "serial" _ _) <|
    .cons (Json.RoundTrips.bool.copies "enabled" _ _) <|
    .cons (Json.RoundTrips.uint32.copies "retry_every" _ _) <|
    .cons (Json.RoundTrips.uint64.copies "read_timeout_ms" _ _) <|
    .cons (Json.RoundTrips.uint64.copies "reconnect_interval_ms" _ _) <|
    .cons (Json.RoundTrips.uint64.copies "write_queue_capacity" _ _) <|
    .cons (Json.RoundTrips.uint64.copies "assembler_capacity" _ _) <|
    .cons (Json.RoundTrips.uint64.copies "static_request_every_ms" _ _) <|
    .cons (Json.RoundTrips.uint64.copies "executor_cycle_ms" _ _) .nil
  nodup := by decide
  complete _ := rfl

theorem ofText?_toText (c : Config) : ofText? c.toText = some c := by
  have h := copies.roundTrips
  rw [ofText?, toText, Json.parse_indented (h.isWritten c), Option.bind_some, h.read_write]

/-- The bytes of a text are read as that text. -/
theorem fromUTF8?_toUTF8 (text : String) :
    String.fromUTF8? ⟨text.toUTF8.data.toList.toArray⟩ = some text := by
  rw [String.toUTF8_eq_toByteArray, Array.toArray_toList, String.fromUTF8?,
    dif_pos text.isValidUTF8]
  rfl

/-- A configuration is loaded from its saved file as it was, whatever its fields hold. -/
theorem load_save (c : Config) : load (some c.save) = .ok c := by
  simp only [load, save, fromUTF8?_toUTF8, ofText?_toText]

end Config

end CabinetBus
