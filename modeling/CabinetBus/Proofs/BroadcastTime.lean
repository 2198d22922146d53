-- SUMMARY: Which payloads are read as a date and time: those whose first six bytes the calendar has.
import Mathlib.Tactic.IntervalCases
import CabinetBus.Proofs.Loading

/-!
# Broadcast date and time

The calendar is told by the days it has: months of 31 and of 30 days, the 28 days that every
February has, and the leap day. A broadcast is read exactly if its first six bytes name such a day
and a second of it; six bytes that do not are all given back with the refusal, and what stands
behind them is not looked at. Of the years that a byte reaches, two centuries have no leap day.
-/

namespace CabinetBus

/-! ## The calendar -/

namespace Calendar

/-- The leap years: every fourth year, but of the centuries only every fourth. -/
def HasLeapDay (year : Int) : Prop := 4 ∣ year ∧ (100 ∣ year → 400 ∣ year)

/-- The days of a year, by month and day of the month. -/
inductive IsDate (year : Int) : Nat → Nat → Prop
  | long {month day : Nat} (hmonth : month ∈ [1, 3, 5, 7, 8, 10, 12]) (hfirst : 1 ≤ day)
      (hlast : day ≤ 31) : IsDate year month day
  | short {month day : Nat} (hmonth : month ∈ [4, 6, 9, 11]) (hfirst : 1 ≤ day)
      (hlast : day ≤ 30) : IsDate year month day
  | february {day : Nat} (hfirst : 1 ≤ day) (hlast : day ≤ 28) : IsDate year 2 day
  | leapDay (hleap : HasLeapDay year) : IsDate year 2 29

theorem isLeapYear_iff {year : Int} : isLeapYear year ↔ HasLeapDay year := by
  simp only [isLeapYear, HasLeapDay, Bool.and_eq_true, Bool.or_eq_true, beq_iff_eq, bne_iff_ne]
  omega

theorem daysInMonth_of_long {month : Nat} (h : month ∈ [1, 3, 5, 7, 8, 10, 12]) (year : Int) :
    daysInMonth year month = 31 := by
  simp only [List.mem_cons, List.not_mem_nil, or_false] at h
  rcases h with rfl | rfl | rfl | rfl | rfl | rfl | rfl <;> rfl

theorem daysInMonth_of_short {month : Nat} (h : month ∈ [4, 6, 9, 11]) (year : Int) :
    daysInMonth year month = 30 := by
  simp only [List.mem_cons, List.not_mem_nil, or_false] at h
  rcases h with rfl | rfl | rfl | rfl <;> rfl

theorem daysInMonth_of_other {month : Nat} (h : month = 0 ∨ 12 < month) (year : Int) :
    daysInMonth year month = 0 := by
  rcases h with rfl | hover
  · rfl
  · unfold daysInMonth
    split <;> omega

/-- The months by their lengths. -/
theorem month_cases (month : Nat) : month ∈ [1, 3, 5, 7, 8, 10, 12] ∨ month ∈ [4, 6, 9, 11] ∨
    month = 2 ∨ month = 0 ∨ 12 < month := by
  by_cases hover : 12 < month
  · exact .inr (.inr (.inr (.inr hover)))
  · interval_cases month <;> decide

theorem isDate_iff {year : Int} {month day : Nat} :
    IsDate year month day ↔ 1 ≤ day ∧ day ≤ daysInMonth year month := by
  have hfebruary : daysInMonth year 2 = if isLeapYear year then 29 else 28 := rfl
  constructor
  · intro h
    cases h with
    | long hmonth hfirst hlast => exact ⟨hfirst, hlast.trans (daysInMonth_of_long hmonth _).ge⟩
    | short hmonth hfirst hlast => exact ⟨hfirst, hlast.trans (daysInMonth_of_short hmonth _).ge⟩
    | february hfirst hlast =>
        refine ⟨hfirst, hlast.trans ?_⟩
        rw [hfebruary]
        split <;> decide
    | leapDay hleap =>
        rw [hfebruary, if_pos (isLeapYear_iff.mpr hleap)]
        decide
  · rintro ⟨hfirst, hlast⟩
    rcases month_cases month with hmonth | hmonth | rfl | hmonth
    · exact .long hmonth hfirst (hlast.trans (daysInMonth_of_long hmonth _).le)
    · exact .short hmonth hfirst (hlast.trans (daysInMonth_of_short hmonth _).le)
    · by_cases hday : day ≤ 28
      · exact .february hfirst hday
      · rw [hfebruary] at hlast
        split at hlast
        · next hleap =>
            obtain rfl : day = 29 := by omega
            exact .leapDay (isLeapYear_iff.mp hleap)
        · exact absurd hlast hday
    · rw [daysInMonth_of_other hmonth] at hlast
      omega

theorem isDate_leapDay_iff {year : Int} : IsDate year 2 29 ↔ HasLeapDay year := by
  constructor
  · intro h
    cases h with
    | long hmonth | short hmonth => exact absurd hmonth (by decide)
    | february _ hlast => exact absurd hlast (by decide)
    | leapDay hleap => exact hleap
  · exact .leapDay

/-- Of the years from 2000 to 2255, all that a byte reaches, 2100 and 2200 are no leap years. -/
theorem hasLeapDay_byte_iff (b : UInt8) :
    HasLeapDay (2000 + b.toNat) ↔ 4 ∣ b.toNat ∧ b ≠ 100 ∧ b ≠ 200 := by
  have hbound : b.toNat < 256 := b.toNat_lt
  have hne (n : UInt8) : b ≠ n ↔ b.toNat ≠ n.toNat := not_congr UInt8.toNat_inj.symm
  rw [hne, hne, HasLeapDay]
  simp only [UInt8.reduceToNat]
  omega

end Calendar

/-- The six fields are a day of the calendar and a second of that day. -/
structure DateTime.IsCivil (t : DateTime) : Prop where
  date : Calendar.IsDate t.year t.month t.day
  hour_lt : t.hour < 24
  minute_lt : t.minute < 60
  second_lt : t.second < 60

theorem DateTime.isCivil_iff {t : DateTime} : t.IsCivil ↔ t.IsValid := by
  rw [IsValid, ← and_assoc, ← Calendar.isDate_iff]
  exact ⟨fun ⟨hdate, hhour, hminute, hsecond⟩ => ⟨hdate, hhour, hminute, hsecond⟩,
    fun ⟨hdate, hhour, hminute, hsecond⟩ => ⟨hdate, hhour, hminute, hsecond⟩⟩

namespace ReportReader

/-! ## Accepted frames -/

theorem exists_wire_of_perform {r : ReportReader} {load : Load} (h : (r.perform load).1 = .ok ()) :
    ∃ wire, load.wire? = some wire ∧ r.perform load = r.load wire := by
  cases load with
  | frame wire => exact ⟨wire, rfl, rfl⟩
  | hex text =>
      cases hwire : Bytes.ofHex? text with
      | none =>
          rw [perform, loadHex, hwire] at h
          cases h
      | some wire => exact ⟨wire, hwire, perform_of_wire r hwire⟩

theorem four_le_length_frame {r : ReportReader} {load : Load} (h : (r.perform load).1 = .ok ()) :
    4 ≤ (r.perform load).2.frame.length := by
  obtain ⟨wire, _, hload⟩ := exists_wire_of_perform h
  rw [hload] at h ⊢
  obtain ⟨decoded, hdecoded⟩ := load_eq_ok_iff.mp h
  obtain ⟨body, content, _, _, _, _, rfl⟩ := Frame.decodeInto_eq_ok_iff.mp hdecoded
  rw [(load_of_decodeInto hdecoded).2]
  simp

/-! ## Answers -/

/-- Fields of one byte each lack the first byte that is not there. -/
theorem ReadAs.eq_of_lt {α : Type} {payload : Bytes} {count : Nat}
    {answer outcome : Except LinkError α}
    (h : ReadAs payload count (List.replicate count 1) answer outcome)
    (hlt : payload.length < count) :
    outcome = .error (.cursor (.exhausted 1 (payloadOffset + payload.length)
      (payloadOffset + payload.length))) := by
  obtain ⟨front, width, back, hwidths, hfront, hwidth, rfl⟩ := h.exhausted_of_lt hlt
  have hmem : width ∈ List.replicate count 1 := hwidths ▸ by simp
  have hone : width = 1 := List.eq_of_mem_replicate hmem
  have hsum : front.sum = payload.length := by omega
  rw [hone, hsum]

/-- The answer to a date and time is that date and time if the calendar has it. -/
theorem dated_eq_ok_iff {t answer : DateTime} : dated t = .ok answer ↔ answer = t ∧ t.IsCivil := by
  rw [dated, DateTime.isCivil_iff]
  split
  · next hvalid => simp [hvalid, eq_comm]
  · next hvalid => simp [hvalid]

/-- A frame that was accepted is read as a date and time exactly if the first six bytes of its
payload are one of the calendar. Six other bytes are refused with all of them, and less than six
bytes for the first one that is missing. -/
theorem date_time_reads_calendar {earlier : List Load} {last : Load}
    (h : ((empty.performAll earlier).perform last).1 = .ok ()) :
    let r := ((empty.performAll earlier).perform last).2
    let payload := Frame.payload r.frame
    (payload.length < 6 → r.dateTime = .error (.cursor (.exhausted 1
      (payloadOffset + payload.length) (payloadOffset + payload.length)))) ∧
    (∀ b0 b1 b2 b3 b4 b5 rest, payload = b0 :: b1 :: b2 :: b3 :: b4 :: b5 :: rest →
      let t : DateTime :=
        ⟨2000 + b0.toNat, b1.toNat, b2.toNat, b3.toNat, b4.toNat, b5.toNat⟩
      (∀ answer, r.dateTime = .ok answer ↔ answer = t ∧ t.IsCivil) ∧
      (¬ t.IsCivil → r.dateTime = .error (.invalidDateTime
        ⟨2000 + b0.toNat, b1.toNat, b2.toNat, b3.toNat, b4.toNat, b5.toNat⟩))) ∧
    ∀ b0 : UInt8,
      Calendar.IsDate (2000 + b0.toNat) 2 29 ↔ 4 ∣ b0.toNat ∧ b0 ≠ 100 ∧ b0 ≠ 200 := by
  intro r payload
  have hlen : 2 ≤ r.frame.length := le_trans (by decide) (four_le_length_frame h)
  have hread : ReadAs payload 6 (List.replicate 6 1) (dated (dateTimeOf payload)) r.dateTime :=
    readAs_dateTime hlen
  refine ⟨hread.eq_of_lt, ?_, fun b0 => ?_⟩
  · intro b0 b1 b2 b3 b4 b5 rest hpayload t
    have hsix : r.dateTime = dated t := by
      rw [hread.eq_of_le (by simp [hpayload]), hpayload]
      rfl
    rw [hsix]
    refine ⟨fun answer => dated_eq_ok_iff, fun hnot => ?_⟩
    rw [dated, if_neg fun hvalid => hnot (DateTime.isCivil_iff.mpr hvalid)]
  · rw [← Calendar.hasLeapDay_byte_iff]
    exact Calendar.isDate_leapDay_iff

/-- After a frame and a text that is none, the leap day that the year 2200 does not have is
refused, whatever byte follows. -/
theorem date_time_reads_calendar_century :
    let earlier : List Load := [.hex "024f12328e03", .hex "zz"]
    let last : Load := .hex "0x0242C87D221D173B3B07D5C603"
    let r := ((empty.performAll earlier).perform last).2
    ((empty.performAll earlier).perform last).1 = .ok () ∧
      Frame.payload r.frame = [200, 2, 29, 23, 59, 59, 7] ∧
      r.dateTime = .error (.invalidDateTime ⟨2200, 2, 29, 23, 59, 59⟩) := by
  intro earlier last r
  have hload : ((empty.performAll earlier).perform last).1 = .ok () := by decide +kernel
  have hpayload : Frame.payload r.frame = [200, 2, 29, 23, 59, 59, 7] := by decide +kernel
  obtain ⟨-, hsix, hleap⟩ := date_time_reads_calendar hload
  have hnot : ¬ (DateTime.mk 2200 2 29 23 59 59).IsCivil := fun hcivil =>
    absurd ((hleap 200).mp hcivil.date) (by decide)
  exact ⟨hload, hpayload, (hsix 200 2 29 23 59 59 [7] hpayload).2 hnot⟩

end ReportReader

end CabinetBus
