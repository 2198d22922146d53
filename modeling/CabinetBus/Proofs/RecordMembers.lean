-- SUMMARY: Members of an object read into a record: each known name at most once, in any order.
import Mathlib.Data.List.Forall2
import CabinetBus.Json.Schema

/-!
# Members of a record

The members of an object are read into a record one after another. What becomes of a field depends
on nothing but the values given under its name: with none it keeps its default, with one it holds
that value, and with two nothing is read at all. Names that the schema does not know have no
influence, and neither has the order of the others.
-/

namespace CabinetBus.Json

/-! ## Values by name -/

/-- The values that members give under a name, in order. -/
def given (name : String) (members : List (List Glyph × Json)) : List Json :=
  members.filterMap fun member => if text? member.1 = some name then some member.2 else none

/-- Members give at most one value under a name: one that means `a`, or none for `none`. -/
def Gives {α : Type} (Means : Json → α → Prop) (name : String)
    (members : List (List Glyph × Json)) : Option α → Prop
  | none => given name members = []
  | some a => ∃ value, given name members = [value] ∧ Means value a

@[simp] theorem given_nil (name : String) : given name [] = [] := rfl

theorem given_cons_of_eq {key : List Glyph} {name : String} (h : text? key = some name)
    (value : Json) (members : List (List Glyph × Json)) :
    given name ((key, value) :: members) = value :: given name members := by
  simp [given, h]

theorem given_cons_of_ne {key : List Glyph} {name : String} (h : text? key ≠ some name)
    (value : Json) (members : List (List Glyph × Json)) :
    given name ((key, value) :: members) = given name members := by
  simp [given, h]

theorem Gives.map {α β : Type} {Means : Json → α → Prop} {MeansToo : Json → β → Prop}
    {name : String} {members : List (List Glyph × Json)} {a? : Option α} (f : α → β)
    (hmeans : ∀ {value a}, Means value a → MeansToo value (f a))
    (h : Gives Means name members a?) : Gives MeansToo name members (a?.map f) := by
  cases a? with
  | none => exact h
  | some a =>
      obtain ⟨value, hone, hvalue⟩ := h
      exact ⟨value, hone, hmeans hvalue⟩

theorem Gives.of_perm {α : Type} {Means : Json → α → Prop} {name : String}
    {members others : List (List Glyph × Json)} {a? : Option α} (hperm : members.Perm others)
    (h : Gives Means name members a?) : Gives Means name others a? := by
  have hgiven : (given name members).Perm (given name others) := hperm.filterMap _
  cases a? with
  | none => exact (List.Perm.nil_eq (h ▸ hgiven)).symm
  | some a =>
      obtain ⟨value, hvalue, hmeans⟩ := h
      exact ⟨value, List.perm_singleton.mp (hvalue ▸ hgiven).symm, hmeans⟩

/-! ## Order of members -/

/-- The same value, or an object with its members in another order. -/
inductive Rearranged : Json → Json → Prop
  | same (value : Json) : Rearranged value value
  | object {members others : List (List Glyph × Json)} (h : members.Perm others) :
      Rearranged (.object members) (.object others)

/-- The same members in another order, and those of each object among them, too. -/
def MembersRearranged (members others : List (List Glyph × Json)) : Prop :=
  ∃ middle, List.Forall₂ (fun member other => member.1 = other.1 ∧ Rearranged member.2 other.2)
    members middle ∧ middle.Perm others

theorem MembersRearranged.of_perm {members others : List (List Glyph × Json)}
    (h : members.Perm others) : MembersRearranged members others :=
  ⟨members, List.forall₂_same.mpr fun member _ => ⟨rfl, .same member.2⟩, h⟩

theorem forall₂_given {members others : List (List Glyph × Json)}
    (h : List.Forall₂ (fun member other => member.1 = other.1 ∧ Rearranged member.2 other.2)
      members others) (name : String) :
    List.Forall₂ Rearranged (given name members) (given name others) := by
  induction h with
  | nil => exact .nil
  | @cons member other rest others h _ ih =>
      obtain ⟨key, value⟩ := member
      obtain ⟨key', value'⟩ := other
      obtain ⟨rfl, hvalue⟩ := h
      by_cases hkey : text? key = some name
      · rw [given_cons_of_eq hkey, given_cons_of_eq hkey]
        exact .cons hvalue ih
      · rw [given_cons_of_ne hkey, given_cons_of_ne hkey]
        exact ih

/-- The order of members has no influence on what they give. -/
theorem Gives.of_rearranged {α : Type} {Means : Json → α → Prop} {name : String}
    {members others : List (List Glyph × Json)} {a? : Option α}
    (hmeans : ∀ {value other a}, Rearranged value other → Means value a → Means other a)
    (h : MembersRearranged members others) (hgives : Gives Means name members a?) :
    Gives Means name others a? := by
  obtain ⟨middle, hforall, hperm⟩ := h
  refine Gives.of_perm hperm ?_
  have hgiven := forall₂_given hforall name
  cases a? with
  | none =>
      rw [hgives] at hgiven
      exact List.forall₂_nil_left_iff.mp hgiven
  | some a =>
      obtain ⟨value, hone, hvalue⟩ := hgives
      rw [hone] at hgiven
      obtain ⟨other, _, hother, hnil, hmiddle⟩ := List.forall₂_cons_left_iff.mp hgiven
      rw [List.forall₂_nil_left_iff.mp hnil] at hmiddle
      exact ⟨other, hmiddle, hmeans hother hvalue⟩

theorem named_of_rearranged {members others : List (List Glyph × Json)}
    (h : MembersRearranged members others)
    (hnamed : ∀ member ∈ members, ∃ name, text? member.1 = some name) :
    ∀ other ∈ others, ∃ name, text? other.1 = some name := by
  obtain ⟨middle, hforall, hperm⟩ := h
  have hkeys : members.map Prod.fst = middle.map Prod.fst := by
    rw [← List.forall₂_eq_eq_eq, List.forall₂_map_left_iff, List.forall₂_map_right_iff]
    exact hforall.imp fun _ _ h => h.1
  intro other hother
  have hkey : other.1 ∈ members.map Prod.fst :=
    hkeys ▸ List.mem_map_of_mem (hperm.mem_iff.mpr hother)
  obtain ⟨member, hmember, hsame⟩ := List.mem_map.mp hkey
  exact hsame ▸ hnamed member hmember

/-! ## Fields -/

variable {σ α : Type} {schema : Schema σ} {seen : List String}
  {members : List (List Glyph × Json)} {record out : σ}

/-- Reading the field leaves what `get` finds of a record. -/
def Field.Keeps (field : Field σ) (get : σ → α) : Prop :=
  ∀ value before next, field.read value before = some next → get next = get before

/-- A field that sets something else. -/
@[simp] theorem Field.keeps_of_set {β : Type} {get : σ → α} {set : β → σ → σ}
    (h : ∀ b before, get (set b before) = get before) (name : String) (read : Json → Option β)
    (write : σ → Json) :
    Field.Keeps ⟨name, fun value before => (read value).map fun b => set b before, write⟩ get := by
  intro value before next hread
  obtain ⟨b, _, rfl⟩ := Option.map_eq_some_iff.mp hread
  exact h b before

namespace Schema

/-- One more member is skipped if its name is unknown, and read into its field if it is known and
new. -/
theorem ofMembers_cons_eq_some_iff {key : List Glyph} {value : Json} :
    schema.ofMembers seen ((key, value) :: members) record = some out ↔
      ∃ name, text? key = some name ∧
        (schema.find? (·.name == name) = none ∧
            schema.ofMembers seen members record = some out ∨
          ∃ field next, schema.find? (·.name == name) = some field ∧ name ∉ seen ∧
            field.read value record = some next ∧
            schema.ofMembers (name :: seen) members next = some out) := by
  rw [ofMembers]
  cases hkey : text? key with
  | none => simp
  | some name =>
      cases hfind : schema.find? (·.name == name) with
      | none => simp [hfind, -List.find?_eq_none]
      | some field =>
          by_cases hseen : name ∈ seen
          · simp [hfind, hseen, -List.find?_eq_none]
          · simp [hfind, hseen, Option.bind_eq_some_iff, -List.find?_eq_none]

/-- What was read of a field: nothing, if its name was not given; else the one value given. No
field of another name may touch what `get` looks at. -/
theorem given_of_ofMembers {name : String} {field : Field σ} {get : σ → α}
    (hfound : schema.find? (·.name == name) = some field)
    (hkeeps : ∀ other ∈ schema, other.name ≠ name → other.Keeps get)
    (h : schema.ofMembers seen members record = some out) :
    given name members = [] ∧ get out = get record ∨
      name ∉ seen ∧ ∃ value before next, given name members = [value] ∧
        field.read value before = some next ∧ get out = get next := by
  induction members generalizing seen record with
  | nil =>
      cases h
      exact .inl ⟨rfl, rfl⟩
  | cons member rest ih =>
      obtain ⟨key, value⟩ := member
      obtain ⟨other, hkey, ⟨hunknown, h⟩ | ⟨found, next, hother, hnew, hread, h⟩⟩ :=
        ofMembers_cons_eq_some_iff.mp h
      · have hne : text? key ≠ some name := by
          rintro hname
          obtain rfl := Option.some.inj (hkey.symm.trans hname)
          cases hfound.symm.trans hunknown
        rw [given_cons_of_ne hne]
        exact ih h
      -- A name that was read is seen from there on, so what follows cannot give it again.
      · by_cases hname : other = name
        · subst hname
          obtain rfl := Option.some.inj (hother.symm.trans hfound)
          rw [given_cons_of_eq hkey]
          rcases ih h with ⟨hnone, hget⟩ | ⟨hseen, _⟩
          · exact .inr ⟨hnew, value, record, next, by rw [hnone], hread, hget⟩
          · exact absurd List.mem_cons_self hseen
        · have hne : text? key ≠ some name := by
            rw [hkey]
            exact fun hsame => hname (Option.some.inj hsame)
          have hfoundName : found.name = other := by simpa using List.find?_some hother
          have hkept : get next = get record :=
            hkeeps found (List.mem_of_find?_eq_some hother) (hfoundName ▸ hname) _ _ _ hread
          rw [given_cons_of_ne hne]
          rcases ih h with ⟨hnone, hget⟩ | ⟨hseen, hvalue⟩
          · exact .inl ⟨hnone, hget.trans hkept⟩
          · exact .inr ⟨fun hmem => hseen (List.mem_cons_of_mem other hmem), hvalue⟩

/-- A record is read only if no field is given twice and each value given is one that its field
takes. -/
theorem once_of_ofMembers {name : String} {field : Field σ}
    (hfound : schema.find? (·.name == name) = some field)
    (h : schema.ofMembers seen members record = some out) :
    (given name members).length ≤ 1 ∧
      ∀ value ∈ given name members, ∃ before next, field.read value before = some next := by
  let get : σ → Unit := fun _ => ()
  have hkeeps : ∀ other ∈ schema, other.name ≠ name → other.Keeps get := fun _ _ _ _ _ _ _ => rfl
  rcases given_of_ofMembers hfound hkeeps h with
    ⟨hnone, _⟩ | ⟨_, value, before, next, hone, hread, _⟩
  · simp [hnone]
  · rw [hone]
    refine ⟨Nat.le_refl 1, fun other hother => ?_⟩
    obtain rfl := List.mem_singleton.mp hother
    exact ⟨before, next, hread⟩

end Schema

/-! ## Fields that are served -/

/-- Members do not give the field twice, nor again if it was `seen`, and what they give it takes. -/
structure Field.IsServed (field : Field σ) (seen : List String)
    (members : List (List Glyph × Json)) : Prop where
  once : (given field.name members).length ≤ 1
  fresh : field.name ∈ seen → given field.name members = []
  taken : ∀ value ∈ given field.name members, ∀ record, ∃ next, field.read value record = some next

theorem Field.IsServed.tail {field : Field σ} {key : List Glyph} {value : Json} {name : String}
    (h : field.IsServed seen ((key, value) :: members)) (hkey : text? key = some name) :
    field.IsServed (name :: seen) members := by
  obtain ⟨honce, hfresh, htaken⟩ := h
  by_cases hname : field.name = name
  · rw [given_cons_of_eq (hname ▸ hkey)] at honce htaken
    have hnone : given field.name members = [] :=
      List.eq_nil_of_length_eq_zero (by simpa using honce)
    exact ⟨by simp [hnone], fun _ => hnone, by simp [hnone]⟩
  · have hne : text? key ≠ some field.name := by
      rw [hkey]
      exact fun hsame => hname (Option.some.inj hsame).symm
    rw [given_cons_of_ne hne] at honce hfresh htaken
    exact ⟨honce, fun hmem => hfresh (List.mem_of_ne_of_mem hname hmem), htaken⟩

theorem Field.IsServed.of_cons_seen {field : Field σ} {name : String}
    (h : field.IsServed (name :: seen) members) : field.IsServed seen members :=
  ⟨h.once, fun hmem => h.fresh (List.mem_cons_of_mem name hmem), h.taken⟩

namespace Schema

/-- Members that have names and serve every field are read. -/
theorem exists_ofMembers (hnamed : ∀ member ∈ members, ∃ name, text? member.1 = some name)
    (hserved : ∀ field ∈ schema, field.IsServed seen members) :
    ∃ out, schema.ofMembers seen members record = some out := by
  induction members generalizing seen record with
  | nil => exact ⟨record, rfl⟩
  | cons member rest ih =>
      obtain ⟨key, value⟩ := member
      obtain ⟨name, hkey⟩ := hnamed _ List.mem_cons_self
      have hrest := fun other hother => hnamed other (List.mem_cons_of_mem _ hother)
      have htail := fun field hfield => (hserved field hfield).tail hkey
      cases hfind : schema.find? (·.name == name) with
      | none =>
          obtain ⟨out, hout⟩ := ih hrest fun field hfield => (htail field hfield).of_cons_seen
          exact ⟨out, ofMembers_cons_eq_some_iff.mpr ⟨name, hkey, .inl ⟨hfind, hout⟩⟩⟩
      | some found =>
          have hname : found.name = name := by simpa using List.find?_some hfind
          obtain ⟨_, hfresh, htaken⟩ := hserved found (List.mem_of_find?_eq_some hfind)
          rw [hname, given_cons_of_eq hkey] at hfresh htaken
          have hnew : name ∉ seen := fun hmem => List.cons_ne_nil _ _ (hfresh hmem)
          obtain ⟨next, hnext⟩ := htaken value List.mem_cons_self record
          obtain ⟨out, hout⟩ := ih hrest htail
          exact ⟨out, ofMembers_cons_eq_some_iff.mpr
            ⟨name, hkey, .inr ⟨found, next, hfind, hnew, hnext, hout⟩⟩⟩

/-! ## Values that a record holds -/

/-- Records of the schema hold, where `get` finds it, what a value given under the name means. -/
structure Holds (schema : Schema σ) (name : String) (Means : Json → α → Prop) (get : σ → α) :
    Prop where
  takes : ∃ field, schema.find? (·.name == name) = some field ∧ ∀ {value a}, Means value a →
    ∀ before, ∃ next, field.read value before = some next ∧ get next = a
  keeps : ∀ other ∈ schema, other.name ≠ name → other.Keeps get

namespace Holds

variable {name : String} {Means : Json → α → Prop} {get : σ → α} {a? : Option α}

/-- A field that sets what `get` finds. -/
theorem of_read {read : Json → Option α} {set : α → σ → σ} {write : σ → Json}
    (hfound : schema.find? (·.name == name) =
      some ⟨name, fun value before => (read value).map fun a => set a before, write⟩)
    (hread : ∀ {value a}, Means value a → read value = some a)
    (hget : ∀ a before, get (set a before) = a)
    (hkeeps : ∀ other ∈ schema, other.name ≠ name → other.Keeps get) :
    schema.Holds name Means get where
  takes := ⟨_, hfound, fun {value a} hmeans before =>
    ⟨set a before, by simp only [hread hmeans, Option.map_some], hget a before⟩⟩
  keeps := hkeeps

theorem isServed (h : schema.Holds name Means get) {field : Field σ}
    (hfound : schema.find? (·.name == name) = some field) (hgives : Gives Means name members a?) :
    field.IsServed [] members := by
  have hname : field.name = name := by simpa using List.find?_some hfound
  subst hname
  obtain ⟨found, hother, htakes⟩ := h.takes
  obtain rfl := Option.some.inj (hother.symm.trans hfound)
  cases a? with
  | none =>
      have hnone : given found.name members = [] := hgives
      exact ⟨by simp [hnone], fun _ => hnone, by simp [hnone]⟩
  | some a =>
      obtain ⟨value, hone, hmeans⟩ := hgives
      refine ⟨by simp [hone], fun hmem => (List.not_mem_nil hmem).elim,
        fun other hother before => ?_⟩
      rw [hone] at hother
      obtain rfl := List.mem_singleton.mp hother
      obtain ⟨next, hread, _⟩ := htakes hmeans before
      exact ⟨next, hread⟩

/-- A record that was read holds what was given, or what it held before. -/
theorem get_eq (h : schema.Holds name Means get) (hgives : Gives Means name members a?)
    (hread : schema.ofMembers [] members record = some out) : get out = a?.getD (get record) := by
  obtain ⟨field, hfound, htakes⟩ := h.takes
  rcases given_of_ofMembers hfound h.keeps hread with
    ⟨hnone, hget⟩ | ⟨_, value, before, next, hone, hnext, hget⟩
  · cases a? with
    | none => exact hget
    | some a =>
        obtain ⟨_, hvalue, _⟩ := hgives
        cases hnone.symm.trans hvalue
  · cases a? with
    | none => cases hone.symm.trans hgives
    | some a =>
        obtain ⟨other, hvalue, hmeans⟩ := hgives
        obtain rfl := (List.cons.inj (hone.symm.trans hvalue)).1
        obtain ⟨_, hother, hvalue⟩ := htakes hmeans before
        obtain rfl := Option.some.inj (hnext.symm.trans hother)
        exact hget.trans hvalue

end Holds

/-! ## Flaws -/

/-- A name of the schema is given twice, or given null. -/
def IsFlawed (schema : Schema σ) (members : List (List Glyph × Json)) : Prop :=
  ∃ name ∈ schema.map (·.name),
    2 ≤ (given name members).length ∨ Json.null ∈ given name members

/-- Flawed members are not read, if no field takes null. -/
theorem ofMembers_eq_none_of_isFlawed
    (hnull : ∀ field ∈ schema, ∀ before, field.read .null before = none)
    (h : schema.IsFlawed members) : schema.ofMembers seen members record = none := by
  obtain ⟨name, hname, hflaw⟩ := h
  -- Any record that was read would have taken each name once, and no null.
  obtain ⟨field, hfound⟩ : ∃ field, schema.find? (·.name == name) = some field := by
    obtain ⟨field, hfield, rfl⟩ := List.mem_map.mp hname
    exact Option.isSome_iff_exists.mp (List.find?_isSome.mpr ⟨field, hfield, by simp⟩)
  rw [Option.eq_none_iff_forall_ne_some]
  intro out hread
  obtain ⟨honce, htaken⟩ := once_of_ofMembers hfound hread
  rcases hflaw with htwice | hgiven
  · omega
  · obtain ⟨before, next, hnext⟩ := htaken .null hgiven
    rw [hnull field (List.mem_of_find?_eq_some hfound)] at hnext
    cases hnext

end Schema

end CabinetBus.Json
