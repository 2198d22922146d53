-- SUMMARY: Bytes survive their text however it is decorated, so the audit trail tells all of them.
import CabinetBus.Proofs.Auditing
import CabinetBus.Proofs.HexText

/-!
# Bytes behind their text

Bytes are read back from their text in any case of its letters, behind either radix or none, and
with blanks around it. None of the decoration can be mistaken for data: no digit is a blank, and
the second character of a radix is no digit. Two byte strings therefore never share a text, and the
audit trail, which keeps nothing but texts, tells the bytes of every read and every write.
-/

namespace CabinetBus

/-! ## Letter case -/

namespace Text

/-- Digits of which those at chosen places are capital letters. -/
def recased (upper : Nat → Bool) (digits : List Char) : List Char :=
  digits.mapIdx fun place c => if upper place then c.toUpper else c

@[simp] theorem recased_nil (upper : Nat → Bool) : recased upper [] = [] := rfl

@[simp] theorem recased_cons (upper : Nat → Bool) (c : Char) (rest : List Char) :
    recased upper (c :: rest) =
      (if upper 0 then c.toUpper else c) :: recased (fun place => upper (place + 1)) rest :=
  List.mapIdx_cons

theorem recased_nowhere (digits : List Char) : recased (fun _ => false) digits = digits := by
  induction digits with
  | nil => rfl
  | cons c rest ih => simpa using ih

/-- A digit has its value in either case. -/
theorem hexValue?_cased {d : Nat} (h : d < 16) (upper : Bool) :
    hexValue? (if upper then d.digitChar.toUpper else d.digitChar) = some d := by
  revert d upper
  decide

theorem hexValue?_plus : hexValue? '+' = none := by decide

end Text

namespace Bytes

/-! ## Digits of bytes -/

theorem pairValue?_of_values {high low : Char} {h l : Nat} (hhigh : Text.hexValue? high = some h)
    (hlow : Text.hexValue? low = some l) :
    pairValue? high low = some (UInt8.ofNat (16 * h + l)) := by
  have hplus : high ≠ '+' := by
    rintro rfl
    cases Text.hexValue?_plus.symm.trans hhigh
  simp [pairValue?, hplus, hhigh, hlow]

/-- The two digits of a byte are read as the byte. -/
theorem ofHexDigits?_hexPair (b : UInt8) (upper : Nat → Bool) (rest : List Char) :
    ofHexDigits? (Text.recased upper (hexPair b ++ rest)) =
      (ofHexDigits? (Text.recased (fun place => upper (place + 2)) rest)).map (b :: ·) := by
  have hbound : b.toNat < 256 := b.toNat_lt
  have hvalue : UInt8.ofNat (16 * (b.toNat / 16) + b.toNat % 16) = b := by
    rw [Nat.div_add_mod, UInt8.ofNat_toNat]
  have hpair := pairValue?_of_values
    (Text.hexValue?_cased (d := b.toNat / 16) (by omega) (upper 0))
    (Text.hexValue?_cased (d := b.toNat % 16) (by omega) (upper 1))
  simp only [hexPair, List.cons_append, List.nil_append, Text.recased_cons, ofHexDigits?, hpair,
    hvalue]
  cases ofHexDigits? (Text.recased (fun place => upper (place + 2)) rest) <;> rfl

theorem ofHexDigits?_recased (bytes : Bytes) (upper : Nat → Bool) :
    ofHexDigits? (Text.recased upper (hexDigits bytes)) = some bytes := by
  induction bytes generalizing upper with
  | nil => rfl
  | cons b rest ih =>
      have hsplit : hexDigits (b :: rest) = hexPair b ++ hexDigits rest := List.flatMap_cons
      rw [hsplit, ofHexDigits?_hexPair, ih]
      rfl

theorem isHexDigit_of_mem_recased {bytes : Bytes} {upper : Nat → Bool} {c : Char}
    (h : c ∈ Text.recased upper (hexDigits bytes)) : Text.IsHexDigit c := by
  obtain ⟨place, hplace, rfl⟩ := List.mem_mapIdx.mp h
  obtain ⟨b, _, hdigit⟩ := List.mem_flatMap.mp (List.getElem_mem hplace)
  have hbound : b.toNat < 256 := b.toNat_lt
  rw [← Text.isSome_hexValue?_iff]
  simp only [hexPair, List.mem_cons, List.not_mem_nil, or_false] at hdigit
  rcases hdigit with hdigit | hdigit
  · rw [hdigit, Text.hexValue?_cased (by omega)]
    rfl
  · rw [hdigit, Text.hexValue?_cased (by omega)]
    rfl

/-! ## Decorations -/

/-- What may stand before the digits. -/
def radixes : List (List Char) := [[], ['0', 'x'], ['0', 'X']]

/-- The characters of a radix are no blanks either. -/
theorem isBlank_eq_false_of_mem_radix {radix : List Char} (h : radix ∈ radixes) :
    ∀ c ∈ radix, Text.isBlank c = false := by
  simp only [radixes, List.mem_cons, List.not_mem_nil, or_false] at h
  rcases h with rfl | rfl | rfl <;> simp [Text.isBlank, Text.blankRanges]

theorem isBody_decorated {front radix body back : List Char}
    (hblank : ∀ c ∈ front ++ back, Text.isBlank c) (hradix : radix ∈ radixes)
    (hbody : ∀ c ∈ body, Text.IsHexDigit c) :
    IsBody (String.ofList (front ++ radix ++ body ++ back)) body := by
  have hcore : ∀ c ∈ radix ++ body, Text.isBlank c = false := by
    intro c hc
    rcases List.mem_append.mp hc with hc | hc
    · exact isBlank_eq_false_of_mem_radix hradix c hc
    · exact Text.isBlank_eq_false_of_isHexDigit (hbody c hc)
  refine ⟨radix ++ body, ⟨front, back, ?_, hblank, ?_, ?_⟩, ?_⟩
  · simp
  · exact fun c hc => hcore c (List.mem_of_mem_head? hc)
  · exact fun c hc => hcore c (List.mem_of_mem_getLast? hc)
  · -- Digits alone cannot be taken for a radix, whose second character is none.
    have hsecond {letter : Char} (hletter : ¬ Text.IsHexDigit letter) (rest : List Char) :
        body ≠ '0' :: letter :: rest := by
      rintro rfl
      exact hletter (hbody letter (by simp))
    simp only [radixes, List.mem_cons, List.not_mem_nil, or_false] at hradix
    rcases hradix with rfl | rfl | rfl
    · exact .plain (hsecond (by decide)) (hsecond (by decide))
    · exact .lower body
    · exact .upper body

theorem ofHex?_decorated {front radix back : List Char}
    (hblank : ∀ c ∈ front ++ back, Text.isBlank c) (hradix : radix ∈ radixes) (bytes : Bytes)
    (upper : Nat → Bool) :
    ofHex? (String.ofList (front ++ radix ++ Text.recased upper (toHex bytes).toList ++ back)) =
      some bytes := by
  have hdigits : (toHex bytes).toList = hexDigits bytes := String.toList_ofList
  rw [hdigits, ofHex?_of_isBody (isBody_decorated hblank hradix fun c => isHexDigit_of_mem_recased)]
  exact ofHexDigits?_recased bytes upper

/-- The text as it is written is the one without any decoration. -/
theorem ofHex?_toHex (bytes : Bytes) : ofHex? (toHex bytes) = some bytes := by
  have hblank : ∀ c ∈ ([] : List Char) ++ [], Text.isBlank c := List.forall_mem_nil _
  have hradix : [] ∈ radixes := by decide
  simpa [Text.recased_nowhere] using ofHex?_decorated hblank hradix bytes fun _ => false

end Bytes

/-! ## Records -/

namespace Service

variable {η : Type}

/-- The records of reads and writes are the texts of what the port gave and took. -/
theorem records_run (config : Config) (handler : η) (actions : List (ServiceAction η)) :
    let fresh := Service.new config handler
    let answered := fresh.log (unwound traffic) actions
    let service := (fresh.run actions).service
    service.records .read = (answered.filterMap Traffic.read?).map Bytes.toHex ∧
      service.records .write = (answered.filterMap Traffic.wrote?).map Bytes.toHex := by
  intro fresh answered service
  have hfilled : fresh.Filled := fun message hmem => absurd hmem List.not_mem_nil
  have hagrees : (fresh.run actions).Agrees answered :=
    ServiceStep.agrees_of_new (closed_accounts.run fresh actions hfilled)
      (closed_discloses.run fresh actions)
  exact ⟨hagrees.read_details, hagrees.write_details⟩

end Service

namespace Bytes

theorem map_ofHex?_toHex (pieces : List Bytes) :
    (pieces.map toHex).map ofHex? = pieces.map some := by
  rw [List.map_map]
  exact List.map_congr_left fun piece _ => ofHex?_toHex piece

/-- Bytes are read back from their text in any case, behind any radix and between any blanks. No
two byte strings have one text, and the details of the records of a run are read back as the bytes
of every read and every write, one by one. -/
theorem hex_round_trips :
    (∀ (bytes : Bytes) (upper : Nat → Bool) (front radix back : List Char),
      radix ∈ radixes → (∀ c ∈ front ++ back, Text.isBlank c) →
        ofHex? (String.ofList
          (front ++ radix ++ Text.recased upper (toHex bytes).toList ++ back)) = some bytes) ∧
    Function.Injective toHex ∧
    ∀ {η : Type} (config : Config) (handler : η) (actions : List (ServiceAction η)),
      let fresh := Service.new config handler
      let answered := fresh.log (Service.unwound Service.traffic) actions
      let service := (fresh.run actions).service
      (service.records .read).map ofHex? = (answered.filterMap Traffic.read?).map some ∧
      (service.records .write).map ofHex? = (answered.filterMap Traffic.wrote?).map some := by
  refine ⟨?_, ?_, ?_⟩
  · intro bytes upper front radix back hradix hblank
    exact ofHex?_decorated hblank hradix bytes upper
  · intro left right h
    have hread := congrArg ofHex? h
    rw [ofHex?_toHex, ofHex?_toHex] at hread
    exact Option.some.inj hread
  · intro η config handler actions fresh answered service
    obtain ⟨hread, hwrite⟩ := Service.records_run config handler actions
    simp only [service, answered, fresh, hread, hwrite, map_ofHex?_toHex, and_self]

/-- The first byte is zero, so that its digits follow on the zero of the radix. -/
theorem hex_round_trips_leading_zero :
    ['0', 'X'] ∈ radixes ∧ (∀ c ∈ ['\u3000', '\t'] ++ ['\n', '\u00A0'], Text.isBlank c) ∧
      ofHex? "\u3000\t0X00aBfF\n\u00A0" = some [0x00, 0xAB, 0xFF] := by
  have hradix : ['0', 'X'] ∈ radixes := by decide
  have hblank : ∀ c ∈ ['\u3000', '\t'] ++ ['\n', '\u00A0'], Text.isBlank c :=
    List.all_eq_true.mp (by decide)
  have hread :=
    hex_round_trips.1 [0x00, 0xAB, 0xFF] (fun place => place % 2 = 1) _ _ _ hradix hblank
  exact ⟨hradix, hblank, hread⟩

end Bytes

end CabinetBus
