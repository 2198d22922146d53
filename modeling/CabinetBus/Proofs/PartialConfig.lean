-- SUMMARY: A configuration file that gives some of the fields, and what it is loaded as.
import CabinetBus.Proofs.ConfigFile
import CabinetBus.Proofs.RecordMembers

/-!
# Partial configuration files

A file may give any of the fields, in any order and with any other members among them. It is
loaded as the default configuration with these fields replaced, at both levels. A field that is
given twice, or given null, makes the file invalid.
-/

namespace CabinetBus

/-! ## Values of fields -/

namespace Json

/-- A string that spells the text. -/
def IsString (value : Json) (text : String) : Prop :=
  ∃ glyphs, value = .string glyphs ∧ text? glyphs = some text

/-- A case by its name, or as an object with that name alone, which is null. -/
def IsChoice (value : Json) (name : String) : Prop :=
  value.IsString name ∨ ∃ key, value = .object [(key, .null)] ∧ text? key = some name

theorem string?_eq_some_iff {value : Json} {text : String} :
    string? value = some text ↔ value.IsString text := by
  cases value <;> simp [string?, IsString]

theorem bool?_eq_some_iff {value : Json} {b : Bool} : bool? value = some b ↔ value = .bool b := by
  cases value <;> simp [bool?]

theorem nat?_eq_some_iff {value : Json} {n : Nat} : nat? value = some n ↔ value = ofNat n := by
  unfold nat?
  split <;> simp_all [ofNat]

theorem natBelow?_eq_some_iff {bound n : Nat} {value : Json} :
    natBelow? bound value = some n ↔ value = ofNat n ∧ n < bound := by
  simp only [natBelow?, Option.bind_eq_some_iff, nat?_eq_some_iff, Option.ite_none_right_eq_some,
    Option.some.injEq]
  constructor
  · rintro ⟨m, hvalue, hm, rfl⟩
    exact ⟨hvalue, hm⟩
  · rintro ⟨hvalue, hn⟩
    exact ⟨n, hvalue, hn, rfl⟩

theorem uint32?_eq_some_iff {value : Json} {n : UInt32} :
    uint32? value = some n ↔ value = ofNat n.toNat := by
  simp only [uint32?, Option.map_eq_some_iff, natBelow?_eq_some_iff]
  constructor
  · rintro ⟨m, ⟨hvalue, hm⟩, rfl⟩
    rw [hvalue, UInt32.toNat_ofNat_of_lt' hm]
  · intro hvalue
    exact ⟨n.toNat, ⟨hvalue, n.toNat_lt⟩, UInt32.ofNat_toNat⟩

theorem uint64?_eq_some_iff {value : Json} {n : UInt64} :
    uint64? value = some n ↔ value = ofNat n.toNat := by
  simp only [uint64?, Option.map_eq_some_iff, natBelow?_eq_some_iff]
  constructor
  · rintro ⟨m, ⟨hvalue, hm⟩, rfl⟩
    rw [hvalue, UInt64.toNat_ofNat_of_lt' hm]
  · intro hvalue
    exact ⟨n.toNat, ⟨hvalue, n.toNat_lt⟩, UInt64.ofNat_toNat⟩

/-- Choices are told by their names alone. -/
theorem choice?_eq_some_iff {α : Type} {options : List (String × α)} {name : α → String}
    (hnames : ∀ option ∈ options, option.1 = name option.2)
    (hfound : ∀ a, options.lookup (name a) = some a) {value : Json} {a : α} :
    choice? options value = some a ↔ value.IsChoice (name a) := by
  have hlookup (text : String) : options.lookup text = some a ↔ text = name a := by
    constructor
    · intro h
      obtain ⟨before, after, rfl, _⟩ := List.lookup_eq_some_iff.mp h
      exact hnames (text, a) (by simp)
    · rintro rfl
      exact hfound a
  unfold choice?
  split
  · simp [IsChoice, IsString, Option.bind_eq_some_iff, hlookup]
  · simp [IsChoice, IsString, Option.bind_eq_some_iff, hlookup]
  · rename_i hstring hobject
    refine ⟨nofun, ?_⟩
    rintro (⟨glyphs, rfl, _⟩ | ⟨key, rfl, _⟩)
    · exact (hstring glyphs rfl).elim
    · exact (hobject key rfl).elim

/-! ### Rearranged values -/

theorem IsString.of_rearranged {value other : Json} {text : String} (h : value.Rearranged other)
    (hvalue : value.IsString text) : other.IsString text := by
  obtain ⟨glyphs, rfl, htext⟩ := hvalue
  cases h
  exact ⟨glyphs, rfl, htext⟩

theorem IsChoice.of_rearranged {value other : Json} {name : String} (h : value.Rearranged other)
    (hvalue : value.IsChoice name) : other.IsChoice name := by
  rcases hvalue with hstring | ⟨key, rfl, hkey⟩
  · exact .inl (hstring.of_rearranged h)
  · cases h with
    | same => exact .inr ⟨key, rfl, hkey⟩
    | object hperm =>
        obtain rfl := List.singleton_perm.mp hperm
        exact .inr ⟨key, rfl, hkey⟩

theorem eq_ofNat_of_rearranged {value other : Json} {n : Nat} (h : value.Rearranged other)
    (hvalue : value = ofNat n) : other = ofNat n := by
  subst hvalue
  cases h
  rfl

theorem eq_bool_of_rearranged {value other : Json} {b : Bool} (h : value.Rearranged other)
    (hvalue : value = .bool b) : other = .bool b := by
  subst hvalue
  cases h
  rfl

end Json

theorem DataBits.ofJson?_eq_some_iff {value : Json} {bits : DataBits} :
    ofJson? value = some bits ↔ value.IsChoice bits.name :=
  Json.choice?_eq_some_iff (by simp) fun bits => by cases bits <;> decide

theorem Parity.ofJson?_eq_some_iff {value : Json} {parity : Parity} :
    ofJson? value = some parity ↔ value.IsChoice parity.name :=
  Json.choice?_eq_some_iff (by simp) fun parity => by cases parity <;> decide

theorem StopBits.ofJson?_eq_some_iff {value : Json} {bits : StopBits} :
    ofJson? value = some bits ↔ value.IsChoice bits.name :=
  Json.choice?_eq_some_iff (by simp) fun bits => by cases bits <;> decide

/-! ## Serial settings -/

namespace SerialSettings

/-- What a file gives of the settings. -/
structure Partial where
  portName : Option String
  baudRate : Option UInt32
  dataBits : Option DataBits
  parity : Option Parity
  stopBits : Option StopBits

namespace Partial

/-- Members with names give these fields, each at most once, among others of unknown names. -/
structure IsGivenBy (p : Partial) (members : List (List Json.Glyph × Json)) : Prop where
  named : ∀ member ∈ members, ∃ name, Json.text? member.1 = some name
  portName : Json.Gives Json.IsString "port_name" members p.portName
  baudRate : Json.Gives (fun value n => value = .ofNat n.toNat) "baud_rate" members p.baudRate
  dataBits : Json.Gives (fun value bits => value.IsChoice bits.name) "data_bits" members p.dataBits
  parity : Json.Gives (fun value parity => value.IsChoice parity.name) "parity" members p.parity
  stopBits : Json.Gives (fun value bits => value.IsChoice bits.name) "stop_bits" members p.stopBits

/-- The default settings with the fields given in their place. -/
def complete (p : Partial) : SerialSettings where
  portName := p.portName.getD default.portName
  baudRate := p.baudRate.getD default.baudRate
  dataBits := p.dataBits.getD default.dataBits
  parity := p.parity.getD default.parity
  stopBits := p.stopBits.getD default.stopBits

end Partial

/-! ### Fields of settings -/

theorem holds_portName : schema.Holds "port_name" Json.IsString (·.portName) :=
  .of_read rfl Json.string?_eq_some_iff.mpr (fun _ _ => rfl) (by simp [schema])

theorem holds_baudRate :
    schema.Holds "baud_rate" (fun value n => value = .ofNat n.toNat) (·.baudRate) :=
  .of_read rfl Json.uint32?_eq_some_iff.mpr (fun _ _ => rfl) (by simp [schema])

theorem holds_dataBits :
    schema.Holds "data_bits" (fun value bits => value.IsChoice bits.name) (·.dataBits) :=
  .of_read rfl DataBits.ofJson?_eq_some_iff.mpr (fun _ _ => rfl) (by simp [schema])

theorem holds_parity :
    schema.Holds "parity" (fun value parity => value.IsChoice parity.name) (·.parity) :=
  .of_read rfl Parity.ofJson?_eq_some_iff.mpr (fun _ _ => rfl) (by simp [schema])

theorem holds_stopBits :
    schema.Holds "stop_bits" (fun value bits => value.IsChoice bits.name) (·.stopBits) :=
  .of_read rfl StopBits.ofJson?_eq_some_iff.mpr (fun _ _ => rfl) (by simp [schema])

variable {members : List (List Json.Glyph × Json)}

/-- The order of the members has no influence on what they give. -/
theorem Partial.IsGivenBy.of_rearranged {p : Partial} {others : List (List Json.Glyph × Json)}
    (hothers : Json.MembersRearranged members others) (h : p.IsGivenBy members) :
    p.IsGivenBy others where
  named := Json.named_of_rearranged hothers h.named
  portName := h.portName.of_rearranged Json.IsString.of_rearranged hothers
  baudRate := h.baudRate.of_rearranged Json.eq_ofNat_of_rearranged hothers
  dataBits := h.dataBits.of_rearranged Json.IsChoice.of_rearranged hothers
  parity := h.parity.of_rearranged Json.IsChoice.of_rearranged hothers
  stopBits := h.stopBits.of_rearranged Json.IsChoice.of_rearranged hothers

theorem Partial.IsGivenBy.serves {p : Partial} (h : p.IsGivenBy members) :
    ∀ field ∈ schema, field.IsServed [] members := by
  simp only [schema, List.forall_mem_cons]
  exact ⟨holds_portName.isServed rfl h.portName, holds_baudRate.isServed rfl h.baudRate,
    holds_dataBits.isServed rfl h.dataBits, holds_parity.isServed rfl h.parity,
    holds_stopBits.isServed rfl h.stopBits, by simp⟩

/-- What is not given keeps its default. -/
theorem Partial.IsGivenBy.ofMembers {p : Partial} (h : p.IsGivenBy members) :
    schema.ofMembers [] members default = some p.complete := by
  obtain ⟨s, hs⟩ := Json.Schema.exists_ofMembers h.named h.serves
  rw [hs, Option.some.injEq, SerialSettings.mk.injEq]
  exact ⟨holds_portName.get_eq h.portName hs, holds_baudRate.get_eq h.baudRate hs,
    holds_dataBits.get_eq h.dataBits hs, holds_parity.get_eq h.parity hs,
    holds_stopBits.get_eq h.stopBits hs⟩

/-- No field takes null. -/
theorem read_null : ∀ field ∈ schema, ∀ before, field.read .null before = none := by
  simp only [schema, List.forall_mem_cons]
  exact ⟨fun _ => rfl, fun _ => rfl, fun _ => rfl, fun _ => rfl, fun _ => rfl, by simp⟩

end SerialSettings

/-! ## Configurations -/

namespace Config

/-- What a file gives of a configuration, with what its object of serial settings gives. -/
structure Partial where
  serial : Option SerialSettings.Partial
  enabled : Option Bool
  retryEvery : Option UInt32
  readTimeoutMs : Option UInt64
  reconnectIntervalMs : Option UInt64
  writeQueueCapacity : Option UInt64
  assemblerCapacity : Option UInt64
  staticRequestEveryMs : Option UInt64
  pollCycleMs : Option UInt64

namespace Partial

/-- Members with names give these fields, each at most once, among others of unknown names. -/
structure IsGivenBy (p : Partial) (members : List (List Json.Glyph × Json)) : Prop where
  named : ∀ member ∈ members, ∃ name, Json.text? member.1 = some name
  serial : Json.Gives (fun value s => ∃ inner, value = .object inner ∧ s.IsGivenBy inner)
    "serial" members p.serial
  enabled : Json.Gives (fun value b => value = .bool b) "enabled" members p.enabled
  retryEvery : Json.Gives (fun value n => value = .ofNat n.toNat) "retry_every" members p.retryEvery
  readTimeoutMs : Json.Gives (fun value n => value = .ofNat n.toNat)
    "read_timeout_ms" members p.readTimeoutMs
  reconnectIntervalMs : Json.Gives (fun value n => value = .ofNat n.toNat)
    "reconnect_interval_ms" members p.reconnectIntervalMs
  writeQueueCapacity : Json.Gives (fun value n => value = .ofNat n.toNat)
    "write_queue_capacity" members p.writeQueueCapacity
  assemblerCapacity : Json.Gives (fun value n => value = .ofNat n.toNat)
    "assembler_capacity" members p.assemblerCapacity
  staticRequestEveryMs : Json.Gives (fun value n => value = .ofNat n.toNat)
    "static_request_every_ms" members p.staticRequestEveryMs
  pollCycleMs : Json.Gives (fun value n => value = .ofNat n.toNat)
    "executor_cycle_ms" members p.pollCycleMs

/-- The default configuration with the fields given in their place. -/
def complete (p : Partial) : Config where
  serial := (p.serial.map (·.complete)).getD default.serial
  enabled := p.enabled.getD default.enabled
  retryEvery := p.retryEvery.getD default.retryEvery
  readTimeoutMs := p.readTimeoutMs.getD default.readTimeoutMs
  reconnectIntervalMs := p.reconnectIntervalMs.getD default.reconnectIntervalMs
  writeQueueCapacity := p.writeQueueCapacity.getD default.writeQueueCapacity
  assemblerCapacity := p.assemblerCapacity.getD default.assemblerCapacity
  staticRequestEveryMs := p.staticRequestEveryMs.getD default.staticRequestEveryMs
  pollCycleMs := p.pollCycleMs.getD default.pollCycleMs

end Partial

/-! ### Fields of configurations -/

theorem holds_serial :
    schema.Holds "serial" (fun value s => SerialSettings.ofJson? value = some s) (·.serial) :=
  .of_read rfl id (fun _ _ => rfl) (by simp [schema])

theorem holds_enabled : schema.Holds "enabled" (fun value b => value = .bool b) (·.enabled) :=
  .of_read rfl Json.bool?_eq_some_iff.mpr (fun _ _ => rfl) (by simp [schema])

theorem holds_retryEvery :
    schema.Holds "retry_every" (fun value n => value = .ofNat n.toNat) (·.retryEvery) :=
  .of_read rfl Json.uint32?_eq_some_iff.mpr (fun _ _ => rfl) (by simp [schema])

theorem holds_readTimeoutMs :
    schema.Holds "read_timeout_ms" (fun value n => value = .ofNat n.toNat) (·.readTimeoutMs) :=
  .of_read rfl Json.uint64?_eq_some_iff.mpr (fun _ _ => rfl) (by simp [schema])

theorem holds_reconnectIntervalMs : schema.Holds "reconnect_interval_ms"
    (fun value n => value = .ofNat n.toNat) (·.reconnectIntervalMs) :=
  .of_read rfl Json.uint64?_eq_some_iff.mpr (fun _ _ => rfl) (by simp [schema])

theorem holds_writeQueueCapacity : schema.Holds "write_queue_capacity"
    (fun value n => value = .ofNat n.toNat) (·.writeQueueCapacity) :=
  .of_read rfl Json.uint64?_eq_some_iff.mpr (fun _ _ => rfl) (by simp [schema])

theorem holds_assemblerCapacity : schema.Holds "assembler_capacity"
    (fun value n => value = .ofNat n.toNat) (·.assemblerCapacity) :=
  .of_read rfl Json.uint64?_eq_some_iff.mpr (fun _ _ => rfl) (by simp [schema])

theorem holds_staticRequestEveryMs : schema.Holds "static_request_every_ms"
    (fun value n => value = .ofNat n.toNat) (·.staticRequestEveryMs) :=
  .of_read rfl Json.uint64?_eq_some_iff.mpr (fun _ _ => rfl) (by simp [schema])

theorem holds_pollCycleMs :
    schema.Holds "executor_cycle_ms" (fun value n => value = .ofNat n.toNat) (·.pollCycleMs) :=
  .of_read rfl Json.uint64?_eq_some_iff.mpr (fun _ _ => rfl) (by simp [schema])

variable {members : List (List Json.Glyph × Json)}

/-- An object that gives some of the settings gives whole settings. -/
theorem Partial.IsGivenBy.gives_serial {p : Partial} (h : p.IsGivenBy members) :
    Json.Gives (fun value s => SerialSettings.ofJson? value = some s) "serial" members
      (p.serial.map (·.complete)) := by
  refine h.serial.map _ ?_
  rintro _ s ⟨inner, rfl, hinner⟩
  exact hinner.ofMembers

theorem Partial.IsGivenBy.serves {p : Partial} (h : p.IsGivenBy members) :
    ∀ field ∈ schema, field.IsServed [] members := by
  simp only [schema, List.forall_mem_cons]
  exact ⟨holds_serial.isServed rfl h.gives_serial, holds_enabled.isServed rfl h.enabled,
    holds_retryEvery.isServed rfl h.retryEvery, holds_readTimeoutMs.isServed rfl h.readTimeoutMs,
    holds_reconnectIntervalMs.isServed rfl h.reconnectIntervalMs,
    holds_writeQueueCapacity.isServed rfl h.writeQueueCapacity,
    holds_assemblerCapacity.isServed rfl h.assemblerCapacity,
    holds_staticRequestEveryMs.isServed rfl h.staticRequestEveryMs,
    holds_pollCycleMs.isServed rfl h.pollCycleMs, by simp⟩

theorem Partial.IsGivenBy.ofMembers {p : Partial} (h : p.IsGivenBy members) :
    schema.ofMembers [] members default = some p.complete := by
  obtain ⟨c, hc⟩ := Json.Schema.exists_ofMembers h.named h.serves
  rw [hc, Option.some.injEq, Config.mk.injEq]
  exact ⟨holds_serial.get_eq h.gives_serial hc, holds_enabled.get_eq h.enabled hc,
    holds_retryEvery.get_eq h.retryEvery hc, holds_readTimeoutMs.get_eq h.readTimeoutMs hc,
    holds_reconnectIntervalMs.get_eq h.reconnectIntervalMs hc,
    holds_writeQueueCapacity.get_eq h.writeQueueCapacity hc,
    holds_assemblerCapacity.get_eq h.assemblerCapacity hc,
    holds_staticRequestEveryMs.get_eq h.staticRequestEveryMs hc,
    holds_pollCycleMs.get_eq h.pollCycleMs hc⟩

/-- The order of the members has no influence on what they give, neither here nor in the object
of serial settings. -/
theorem Partial.IsGivenBy.of_rearranged {p : Partial} {others : List (List Json.Glyph × Json)}
    (hothers : Json.MembersRearranged members others) (h : p.IsGivenBy members) :
    p.IsGivenBy others where
  named := Json.named_of_rearranged hothers h.named
  serial := by
    refine h.serial.of_rearranged ?_ hothers
    rintro _ other s hvalue ⟨inner, rfl, hinner⟩
    cases hvalue with
    | same => exact ⟨inner, rfl, hinner⟩
    | object hperm => exact ⟨_, rfl, hinner.of_rearranged (.of_perm hperm)⟩
  enabled := h.enabled.of_rearranged Json.eq_bool_of_rearranged hothers
  retryEvery := h.retryEvery.of_rearranged Json.eq_ofNat_of_rearranged hothers
  readTimeoutMs := h.readTimeoutMs.of_rearranged Json.eq_ofNat_of_rearranged hothers
  reconnectIntervalMs := h.reconnectIntervalMs.of_rearranged Json.eq_ofNat_of_rearranged hothers
  writeQueueCapacity := h.writeQueueCapacity.of_rearranged Json.eq_ofNat_of_rearranged hothers
  assemblerCapacity := h.assemblerCapacity.of_rearranged Json.eq_ofNat_of_rearranged hothers
  staticRequestEveryMs := h.staticRequestEveryMs.of_rearranged Json.eq_ofNat_of_rearranged hothers
  pollCycleMs := h.pollCycleMs.of_rearranged Json.eq_ofNat_of_rearranged hothers

/-! ## Flaws -/

/-- A field is given twice or given null, here or in the object of serial settings. -/
def IsFlawed (members : List (List Json.Glyph × Json)) : Prop :=
  schema.IsFlawed members ∨
    ∃ inner, .object inner ∈ Json.given "serial" members ∧ SerialSettings.schema.IsFlawed inner

/-- No field takes null. -/
theorem read_null : ∀ field ∈ schema, ∀ before, field.read .null before = none := by
  simp only [schema, List.forall_mem_cons]
  exact ⟨fun _ => rfl, fun _ => rfl, fun _ => rfl, fun _ => rfl, fun _ => rfl, fun _ => rfl,
    fun _ => rfl, fun _ => rfl, fun _ => rfl, by simp⟩

theorem ofMembers_eq_none_of_isFlawed (h : IsFlawed members) :
    schema.ofMembers [] members default = none := by
  rcases h with hflaw | ⟨inner, hinner, hflaw⟩
  · exact Json.Schema.ofMembers_eq_none_of_isFlawed read_null hflaw
  · have hnone : SerialSettings.ofJson? (.object inner) = none :=
      Json.Schema.ofMembers_eq_none_of_isFlawed SerialSettings.read_null hflaw
    have hserial : schema.find? (·.name == "serial") = some
        ⟨"serial", fun j c => (SerialSettings.ofJson? j).map fun v => { c with serial := v },
          fun c => c.serial.toJson⟩ := rfl
    rw [Option.eq_none_iff_forall_ne_some]
    intro c hc
    obtain ⟨_, htaken⟩ := Json.Schema.once_of_ofMembers hserial hc
    obtain ⟨before, next, hread⟩ := htaken _ hinner
    dsimp only at hread
    rw [hnone] at hread
    cases hread

/-! ## Files -/

/-- The text of an object of members is loaded as they are read. -/
theorem load_of_hasText {text : String}
    (htext : Json.HasSpacedText (.object members) text.toList) :
    load (some text.toUTF8.data.toList) =
      (schema.ofMembers [] members default).elim (.error .invalidData) .ok := by
  simp only [load, fromUTF8?_toUTF8, ofText?, Json.parse_of_hasText htext, Option.bind_some,
    Json.Schema.ofJson]
  cases schema.ofMembers [] members default <;> rfl

/-- A file that gives some of the fields is loaded as the default configuration with these fields
in their place, in whatever order it gives them; a flawed one is not loaded. -/
theorem load_partial {text : String}
    (htext : Json.HasSpacedText (.object members) text.toList) :
    (∀ p : Partial, p.IsGivenBy members →
      load (some text.toUTF8.data.toList) = .ok p.complete ∧
        ∀ others (otherText : String), Json.MembersRearranged members others →
          Json.HasSpacedText (.object others) otherText.toList →
            load (some otherText.toUTF8.data.toList) = .ok p.complete) ∧
    (IsFlawed members → load (some text.toUTF8.data.toList) = .error .invalidData) := by
  refine ⟨fun p hp => ⟨?_, ?_⟩, fun hflaw => ?_⟩
  · rw [load_of_hasText htext, hp.ofMembers, Option.elim_some]
  · intro others otherText hothers hotherText
    rw [load_of_hasText hotherText, (hp.of_rearranged hothers).ofMembers, Option.elim_some]
  · rw [load_of_hasText htext, ofMembers_eq_none_of_isFlawed hflaw, Option.elim_none]

/-- A file with unknown members on both levels, its members in another order, and a file that
gives a field again behind another member. -/
theorem load_partial_two_orders :
    let trace := (Json.glyphs "trace", Json.array [.null])
    let enabled := (Json.glyphs "enabled", Json.bool false)
    let baudRate := (Json.glyphs "baud_rate", Json.ofNat 9600)
    let label := (Json.glyphs "label", Json.ofString "A")
    let file members := some (Json.indented (.object members)).toUTF8.data.toList
    let loaded : Config :=
      { default with enabled := false, serial := { SerialSettings.default with baudRate := 9600 } }
    load (file [trace, (Json.glyphs "serial", .object [label, baudRate]), enabled]) = .ok loaded ∧
      load (file [enabled, (Json.glyphs "serial", .object [baudRate, label]), trace]) =
        .ok loaded ∧
      load (file [enabled, trace, enabled]) = .error .invalidData := by
  intro trace enabled baudRate label file loaded
  have hkey (text : String) : ∀ g ∈ Json.glyphs text, g.IsWritten := fun _ =>
    Json.isWritten_of_mem_glyphs
  have hbaudRate : baudRate.2.IsWritten := Json.RoundTrips.isWritten_ofNat 9600
  have hserial : (Json.object [label, baudRate]).IsWritten :=
    ⟨hkey _, hkey _, hkey _, hbaudRate, trivial⟩
  have hserial' : (Json.object [baudRate, label]).IsWritten :=
    ⟨hkey _, hbaudRate, hkey _, hkey _, trivial⟩
  have htext := Json.hasSpacedText_indented (show (Json.object
    [trace, (Json.glyphs "serial", .object [label, baudRate]), enabled]).IsWritten from
      ⟨hkey _, ⟨trivial, trivial⟩, hkey _, hserial, hkey _, trivial, trivial⟩)
  have hother := Json.hasSpacedText_indented (show (Json.object
    [enabled, (Json.glyphs "serial", .object [baudRate, label]), trace]).IsWritten from
      ⟨hkey _, trivial, hkey _, hserial', hkey _, ⟨trivial, trivial⟩, trivial⟩)
  have hrepeated := Json.hasSpacedText_indented (show (Json.object
    [enabled, trace, enabled]).IsWritten from
      ⟨hkey _, trivial, hkey _, ⟨trivial, trivial⟩, hkey _, trivial, trivial⟩)
  have hgiven : Partial.IsGivenBy ⟨some ⟨none, some 9600, none, none, none⟩, some false, none, none,
      none, none, none, none, none⟩
      [trace, (Json.glyphs "serial", .object [label, baudRate]), enabled] :=
    { named := by simp [trace, enabled]
      serial := ⟨_, rfl, _, rfl, by simp [label, baudRate], rfl, ⟨_, rfl, rfl⟩, rfl, rfl, rfl⟩
      enabled := ⟨_, rfl, rfl⟩
      retryEvery := rfl
      readTimeoutMs := rfl
      reconnectIntervalMs := rfl
      writeQueueCapacity := rfl
      assemblerCapacity := rfl
      staticRequestEveryMs := rfl
      pollCycleMs := rfl }
  have horder : Json.MembersRearranged
      [trace, (Json.glyphs "serial", .object [label, baudRate]), enabled]
      [enabled, (Json.glyphs "serial", .object [baudRate, label]), trace] := by
    refine ⟨[trace, (Json.glyphs "serial", .object [baudRate, label]), enabled], ?_, ?_⟩
    · exact .cons ⟨rfl, .same _⟩ (.cons ⟨rfl, .object (.swap _ _ _)⟩ (.cons ⟨rfl, .same _⟩ .nil))
    · exact (List.reverse_perm _).symm
  have hflawed : IsFlawed [enabled, trace, enabled] :=
    .inl ⟨"enabled", by decide, .inl (by decide)⟩
  obtain ⟨hload, hany⟩ := (load_partial htext).1 _ hgiven
  exact ⟨hload, hany _ _ horder hother, (load_partial hrepeated).2 hflawed⟩

end Config

end CabinetBus
