-- SUMMARY: Which accepted frames have the documented form, and which are accepted without it.
import CabinetBus.Proofs.Unframing

/-!
# Shape of accepted frames

An unframed frame is the start marker, an identifier, a payload, their checksum
and the end marker. The length of a frame is checked on the wire, where an escape
pair counts twice. A body of four bytes can therefore unescape to two, and two
bytes are accepted when they are the checksum of nothing: the frame then has no
identifier, and its first checksum byte stands where the identifier should.
Besides, an escape marker just before the end marker drops out in place, but
flips the end marker on the way into a target.
-/

namespace CabinetBus.Frame

/-! ## The documented form -/

/-- The start marker, an identifier, a payload, the checksum of both, the end marker. -/
def IsUnframed (decoded : Bytes) : Prop :=
  ∃ (identifier : UInt8) (payload : Bytes), decoded = unframed (identifier :: payload)

theorem enclosed_inj {left right : Bytes} : enclosed left = enclosed right ↔ left = right := by
  simp [enclosed]

theorem unframed_inj {left right : Bytes} : unframed left = unframed right ↔ left = right := by
  constructor
  · intro h
    exact (List.append_inj' (enclosed_inj.mp h) rfl).1
  · rintro rfl
    rfl

theorem isUnframed_unframed_iff {content : Bytes} :
    IsUnframed (unframed content) ↔ content ≠ [] := by
  constructor
  · rintro ⟨identifier, payload, h⟩
    rw [unframed_inj.mp h]
    exact List.cons_ne_nil _ _
  · intro h
    obtain ⟨identifier, payload, rfl⟩ := List.exists_cons_of_ne_nil h
    exact ⟨identifier, payload, rfl⟩

/-! ## Frames without an identifier -/

/-- The wire frames whose body unescapes to the checksum of nothing. -/
def emptyFrames : List Bytes :=
  [[0x02, 0x7D, 0xDF, 0x7D, 0xDF, 0x03],
   [0x02, 0x7D, 0xDF, 0xFF, 0x7D, 0x03],
   [0x02, 0xFF, 0x7D, 0xDF, 0x7D, 0x03],
   [0x02, 0x7D, 0xDF, 0x7D, 0xDF, 0x7D, 0x03]]

theorem unescape_plain {b : UInt8} (hb : b ≠ escapeMarker) (rest : Bytes) :
    unescape (b :: rest) = b :: unescape rest := by
  rw [← unescapeFrom_false, unescapeFrom_plain hb, unescapeFrom_false]

theorem unescape_pair (b : UInt8) (rest : Bytes) :
    unescape (escapeMarker :: b :: rest) = (b ^^^ escapeMask) :: unescape rest := rfl

theorem unescape_eq_nil_iff {body : Bytes} :
    unescape body = [] ↔ body = [] ∨ body = [escapeMarker] := by
  constructor
  · intro h
    match body with
    | [] => exact .inl rfl
    | [b] =>
        by_cases hb : b = escapeMarker
        · exact .inr (by rw [hb])
        · rw [unescape_plain hb] at h
          cases h
    | b :: c :: rest =>
        by_cases hb : b = escapeMarker
        · rw [hb, unescape_pair] at h
          cases h
        · rw [unescape_plain hb] at h
          cases h
  · rintro (rfl | rfl) <;> rfl

/-- The first unescaped byte came as itself, or as a pair. -/
theorem unescape_eq_cons {body rest : Bytes} {b : UInt8} (h : unescape body = b :: rest) :
    ∃ more, (body = b :: more ∨ body = escapeMarker :: (b ^^^ escapeMask) :: more) ∧
      unescape more = rest := by
  match body with
  | [] => cases h
  | a :: more =>
      by_cases ha : a = escapeMarker
      · subst ha
        match more with
        | [] => cases h
        | c :: more =>
            rw [unescape_pair] at h
            obtain ⟨rfl, hrest⟩ := List.cons_eq_cons.mp h
            exact ⟨more, .inr (by rw [xor_escapeMask_twice]), hrest⟩
      · rw [unescape_plain ha] at h
        obtain ⟨rfl, hrest⟩ := List.cons_eq_cons.mp h
        exact ⟨more, .inl rfl, hrest⟩

/-- Four bodies of the length that a frame needs hold no content. -/
theorem enclosed_mem_emptyFrames_iff {body : Bytes} (h : 4 ≤ body.length) :
    enclosed body ∈ emptyFrames ↔ unescape body = Checksum.bytes (Checksum.of []) := by
  have hsum : Checksum.bytes (Checksum.of []) = [0xFF, 0xFF] := rfl
  rw [hsum]
  constructor
  · intro hmem
    have hbodies : ∀ wire ∈ emptyFrames, unescape (wire.drop 1).dropLast = [0xFF, 0xFF] := by decide
    simpa [enclosed] using hbodies _ hmem
  · intro hbody
    obtain ⟨more, hfirst, hmore⟩ := unescape_eq_cons hbody
    obtain ⟨last, hsecond, hlast⟩ := unescape_eq_cons hmore
    -- Of the eight ways to write two bytes, with or without an escape marker behind, the
    -- shorter four do not make a frame.
    rcases hfirst with rfl | rfl <;> rcases hsecond with rfl | rfl <;>
      rcases unescape_eq_nil_iff.mp hlast with rfl | rfl <;> revert h <;> decide

/-! ## Accepted frames -/

/-- Among accepted frames, those without a content are the four. -/
theorem content_eq_nil_iff {body content : Bytes} (h : 4 ≤ body.length)
    (hcontent : unescape body = content ++ Checksum.bytes (Checksum.of content)) :
    content = [] ↔ enclosed body ∈ emptyFrames := by
  rw [enclosed_mem_emptyFrames_iff h]
  constructor
  · rintro rfl
    exact hcontent
  · intro hempty
    have hlen := congrArg List.length (hcontent.symm.trans hempty)
    simp only [List.length_append, Checksum.length_bytes] at hlen
    exact List.eq_nil_of_length_eq_zero (by omega)

theorem isUnframed_of_decode_iff {wire decoded : Bytes} (h : (decode wire).result = .ok decoded) :
    IsUnframed decoded ↔ wire ∉ emptyFrames := by
  obtain ⟨body, content, hbody, rfl, hcontent, rfl⟩ := decode_eq_ok_iff.mp h
  rw [isUnframed_unframed_iff, Ne, content_eq_nil_iff hbody hcontent]

/-- Unframing in place takes all four. -/
theorem decode_emptyFrames {wire : Bytes} (h : wire ∈ emptyFrames) :
    (decode wire).result = .ok (unframed []) := by
  have hmarkers : ∀ wire ∈ emptyFrames, 4 ≤ (wire.drop 1).dropLast.length ∧
      wire = enclosed (wire.drop 1).dropLast := by decide
  obtain ⟨hbody, hwire⟩ := hmarkers wire h
  rw [hwire] at h
  exact decode_eq_ok_iff.mpr
    ⟨_, [], hbody, hwire, (enclosed_mem_emptyFrames_iff hbody).mp h, rfl⟩

theorem closing_eq_endMarker_iff (escaped : Bool) :
    closing escaped = endMarker ↔ escaped = false := by
  cases escaped <;> decide

/-- An end marker that was not flipped is the end of the body's own frame. -/
theorem isUnframed_append_closing_iff {content : Bytes} {escaped : Bool} :
    IsUnframed (startMarker :: (content ++ Checksum.bytes (Checksum.of content)) ++
        [closing escaped]) ↔
      content ≠ [] ∧ escaped = false := by
  rw [← closing_eq_endMarker_iff]
  constructor
  · rintro ⟨identifier, payload, h⟩
    obtain ⟨hfront, hlast⟩ := List.append_inj' h rfl
    have hlast : closing escaped = endMarker := (List.cons_eq_cons.mp hlast).1
    have hcontent : content = identifier :: payload :=
      (List.append_inj' (List.cons_eq_cons.mp hfront).2 rfl).1
    exact ⟨by rw [hcontent]; exact List.cons_ne_nil _ _, hlast⟩
  · rintro ⟨hcontent, hlast⟩
    rw [hlast]
    exact isUnframed_unframed_iff.mpr hcontent

/-- Of an enclosed body, the byte before the end marker is the last that can wait. -/
theorem leavesEscape_dropLast_enclosed (body : Bytes) :
    leavesEscape false (enclosed body).dropLast = leavesEscape false body := by
  have hstart : startMarker ≠ escapeMarker := by decide
  rw [enclosed, List.dropLast_concat, leavesEscape_plain hstart]

theorem isUnframed_of_decodeInto_iff {wire target decoded : Bytes}
    (h : (decodeInto wire target).result = .ok decoded) :
    IsUnframed decoded ↔ wire ∉ emptyFrames ∧ leavesEscape false wire.dropLast = false := by
  obtain ⟨body, content, hbody, rfl, hcontent, _, rfl⟩ := decodeInto_eq_ok_iff.mp h
  rw [isUnframed_append_closing_iff, Ne, content_eq_nil_iff hbody hcontent,
    leavesEscape_dropLast_enclosed]

end CabinetBus.Frame

/-! ## Identifiers of loaded frames -/

namespace CabinetBus.ReportReader

open CabinetBus.Frame

/-- The identifier reported is a byte that the checksum covers, with the checksum behind it. -/
def IdentifierIsCovered (r : ReportReader) : Prop :=
  ∃ (identifier : UInt8) (payload : Bytes) (last : UInt8),
    r.frame = startMarker :: ((identifier :: payload) ++
      Checksum.bytes (Checksum.of (identifier :: payload))) ++ [last] ∧
    r.identifier = Identifier.ofByte identifier

theorem identifierIsCovered_of_load_iff {r : ReportReader} {wire : Bytes}
    (h : (r.load wire).1 = .ok ()) :
    (r.load wire).2.IdentifierIsCovered ↔ wire ∉ emptyFrames := by
  obtain ⟨decoded, hdecoded⟩ := load_eq_ok_iff.mp h
  have hframe := (load_of_decodeInto hdecoded).2
  obtain ⟨body, content, hbody, rfl, hcontent, _, rfl⟩ := decodeInto_eq_ok_iff.mp hdecoded
  rw [← content_eq_nil_iff hbody hcontent]
  constructor
  · rintro ⟨identifier, payload, last, hcovered, _⟩ rfl
    have hlen := congrArg List.length (hframe.symm.trans hcovered)
    simp at hlen
  · intro hne
    obtain ⟨identifier, payload, rfl⟩ := List.exists_cons_of_ne_nil hne
    refine ⟨identifier, payload, _, hframe, ?_⟩
    rw [ReportReader.identifier, hframe]
    rfl

end CabinetBus.ReportReader

namespace CabinetBus.Frame

/-- Which accepted frames have the documented form. In place, all but the four that carry no
content. Into a target, besides, no escape marker may wait before the end marker. What a
reader reports as the identifier is then a byte of the content. -/
theorem accepted_frame_has_form_iff (wire target : Bytes) (r : ReportReader) :
    ((∀ decoded, (decode wire).result = .ok decoded → IsUnframed decoded) ↔
      wire ∉ emptyFrames) ∧
    (∀ decoded, (decodeInto wire target).result = .ok decoded →
      (IsUnframed decoded ↔
        wire ∉ emptyFrames ∧ leavesEscape false wire.dropLast = false)) ∧
    ((r.load wire).1 = .ok () →
      ((r.load wire).2.IdentifierIsCovered ↔ wire ∉ emptyFrames)) := by
  refine ⟨⟨fun hform hmem => ?_, fun hmem decoded h => ?_⟩, ?_, ?_⟩
  · exact isUnframed_unframed_iff.mp (hform _ (decode_emptyFrames hmem)) rfl
  · exact (isUnframed_of_decode_iff h).mpr hmem
  · intro decoded h
    exact isUnframed_of_decodeInto_iff h
  · intro h
    exact ReportReader.identifierIsCovered_of_load_iff h

/-- An escape marker before the end marker drops out in place and flips the end marker on
the way into a target; the identifier is read correctly all the same. -/
theorem accepted_frame_has_form_iff_waiting_escape :
    let wire : Bytes := [0x02, 0x10, 0xF3, 0xC1, 0x7D, 0x03]
    (decode wire).result = .ok [0x02, 0x10, 0xF3, 0xC1, 0x03] ∧
    IsUnframed [0x02, 0x10, 0xF3, 0xC1, 0x03] ∧
    (decodeInto wire (Bytes.zeros 8)).result = .ok [0x02, 0x10, 0xF3, 0xC1, 0x23] ∧
    ¬ IsUnframed [0x02, 0x10, 0xF3, 0xC1, 0x23] ∧
    (ReportReader.empty.load wire).1 = .ok () ∧
    (ReportReader.empty.load wire).2.IdentifierIsCovered := by
  intro wire
  have hplace : (decode wire).result = .ok [0x02, 0x10, 0xF3, 0xC1, 0x03] :=
    decode_eq_ok_iff.mpr ⟨[0x10, 0xF3, 0xC1, 0x7D], [0x10], by decide, rfl, by decide, by decide⟩
  have hinto (target : Bytes) (hroom : 5 ≤ target.length) :
      (decodeInto wire target).result = .ok [0x02, 0x10, 0xF3, 0xC1, 0x23] :=
    decodeInto_eq_ok_iff.mpr
      ⟨[0x10, 0xF3, 0xC1, 0x7D], [0x10], by decide, rfl, by decide, hroom, by decide⟩
  have hload : (ReportReader.empty.load wire).1 = .ok () :=
    ReportReader.load_eq_ok_iff.mpr
      ⟨_, hinto _ (by simp [ReportReader.empty, ReportReader.bufferSize])⟩
  have hmem : wire ∉ emptyFrames := by decide
  obtain ⟨hdecode, hdecodeInto, hidentifier⟩ :=
    accepted_frame_has_form_iff wire (Bytes.zeros 8) ReportReader.empty
  have hsmall := hinto (Bytes.zeros 8) (by simp)
  refine ⟨hplace, hdecode.mpr hmem _ hplace, hsmall, ?_, hload, (hidentifier hload).mpr hmem⟩
  rw [hdecodeInto _ hsmall]
  rintro ⟨_, hwaits⟩
  exact absurd hwaits (by decide)

/-- A wire frame of six bytes that holds nothing but the checksum of nothing is accepted. It
has no identifier, and a reader reports the first checksum byte as one. -/
theorem frame_without_identifier_accepted :
    let wire : Bytes := [0x02, 0x7D, 0xDF, 0x7D, 0xDF, 0x03]
    (decode wire).result = .ok [0x02, 0xFF, 0xFF, 0x03] ∧
    ¬ IsUnframed [0x02, 0xFF, 0xFF, 0x03] ∧
    (decodeInto wire ReportReader.empty.buffer).result = .ok [0x02, 0xFF, 0xFF, 0x03] ∧
    (ReportReader.empty.load wire).1 = .ok () ∧
    (ReportReader.empty.load wire).2.identifier = .unknown 0xFF := by
  intro wire
  have hinto : (decodeInto wire ReportReader.empty.buffer).result = .ok [0x02, 0xFF, 0xFF, 0x03] :=
    decodeInto_eq_ok_iff.mpr ⟨[0x7D, 0xDF, 0x7D, 0xDF], [], by decide, rfl, by decide,
      by simp [ReportReader.empty, ReportReader.bufferSize], by decide⟩
  obtain ⟨hload, hframe⟩ := ReportReader.load_of_decodeInto hinto
  refine ⟨decode_emptyFrames (by decide), ?_, hinto, hload, ?_⟩
  · exact fun h => isUnframed_unframed_iff.mp (show IsUnframed (unframed []) from h) rfl
  · rw [ReportReader.identifier, hframe]
    rfl

end CabinetBus.Frame
