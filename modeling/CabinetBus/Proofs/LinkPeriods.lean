-- SUMMARY: Which of the bytes before and after a reconnect a delivered frame can hold.
import Mathlib.Data.List.Induction
import CabinetBus.Proofs.Following
import CabinetBus.Proofs.Receiving

/-!
# Frames and link periods

What is read is read in a period of the link: behind a connect, and before the disconnect
that ends it. The assembler knows nothing of periods, and the frame that a lost link left open
goes on with the first bytes of the next one. So a frame either lies within one period, or it
begins with what earlier periods left open.
-/

open CabinetBus.Frame (Scanner wireFrame)
open CabinetBus.Frame.Scanner (idle EndsIn)

namespace CabinetBus

open LinkEvent (followAll)

/-! ## Periods -/

namespace LinkEvent

/-- Whether an event brings the link up or takes it down. -/
def isTurn : LinkEvent → Bool
  | .connect _ | .disconnect _ => true
  | _ => false

/-- What keeps the link as it is leaves it up only if it was up. -/
theorem eq_true_of_follow {up : Bool} {event : LinkEvent} (h : event.follow up = some true)
    (hturn : event.isTurn = false) : up = true := by
  cases event with
  | connect | disconnect => cases hturn
  | wrote | read =>
      cases up with
      | true => rfl
      | false => cases h
  | error | opening | portTimeout | portWrite | portWriteError | portFlush => exact Option.some.inj h

/-- A link that is up has been so since its last connect. -/
theorem exists_connect {events : List LinkEvent} (h : followAll false events = some true) :
    ∃ front state period, events = front ++ .connect state :: period ∧
      ∀ event ∈ period, event.isTurn = false := by
  induction events using List.reverseRecOn with
  | nil => cases h
  | append_singleton front event ih =>
      rw [followAll_append] at h
      obtain ⟨up, hfront, hlast⟩ := Option.bind_eq_some_iff.mp h
      have hfollow : event.follow up = some true := by
        rw [followAll_cons] at hlast
        obtain ⟨_, hevent, hnil⟩ := Option.bind_eq_some_iff.mp hlast
        rwa [← show _ = some true from hnil]
      cases hturn : event.isTurn with
      | false =>
          rw [eq_true_of_follow hfollow hturn] at hfront
          obtain ⟨before, state, period, rfl, hperiod⟩ := ih hfront
          refine ⟨before, state, period ++ [event], by simp, fun other hmem => ?_⟩
          rcases List.mem_append.mp hmem with hearlier | hnow
          · exact hperiod other hearlier
          · rwa [List.mem_singleton.mp hnow]
      | true =>
          cases event with
          | connect state =>
              exact ⟨front, state, [], rfl, fun other hmem => (List.not_mem_nil hmem).elim⟩
          | disconnect state => cases up <;> cases hfollow
          | _ => cases hturn

end LinkEvent

/-! ## Frames -/

namespace Frame.Scanner

/-- Each frame is closed by one chunk for which there was room. -/
theorem exists_chunk_of_mem_frames {capacity : Nat} {s : Scanner} {chunks : List Bytes}
    {frame : Bytes} (h : frame ∈ (s.intake capacity chunks).frames) :
    ∃ before chunk after, chunks = before ++ chunk :: after ∧
      frame ∈ ((s.intake capacity before).last.takeChunk capacity chunk).frames := by
  induction chunks generalizing s with
  | nil => cases h
  | cons chunk rest ih =>
      rcases List.mem_append.mp h with hfirst | hlater
      · exact ⟨[], chunk, rest, rfl, hfirst⟩
      · obtain ⟨before, closing, after, rfl, hmem⟩ := ih hlater
        exact ⟨chunk :: before, closing, after, rfl, hmem⟩

end Frame.Scanner

/-- A frame that the events of a link give ends in one period of the link. It lies there whole,
or it begins with the frame that was open when the period began. -/
theorem LinkEvent.exists_period_of_mem_frames {events : List LinkEvent} {up : Bool}
    (hevents : followAll false events = some up) {capacity : Nat} {frame : Bytes}
    (hframe : frame ∈ (idle.intake capacity (events.filterMap chunk?)).frames) :
    ∃ front state period back, events = front ++ .connect state :: (period ++ back) ∧
      (∀ event ∈ period, event.isTurn = false) ∧
      EndsIn (idle.intake capacity (front.filterMap chunk?)).last.taken
        (period.filterMap chunk?).flatten frame := by
  obtain ⟨before, chunk, after, hchunks, hclosed⟩ :=
    Frame.Scanner.exists_chunk_of_mem_frames hframe
  obtain ⟨first, others, rfl, hbefore, hothers⟩ := List.filterMap_eq_append_iff.mp hchunks
  obtain ⟨silent, event, back, rfl, hsilent, hread, _⟩ := List.filterMap_eq_cons_iff.mp hothers
  obtain ⟨state, rfl⟩ : ∃ state, event = .read chunk state := by
    cases event with
    | read data state => exact ⟨state, by rw [Option.some.inj hread]⟩
    | _ => cases hread
  -- The chunk was read while the link was up, so there is a connect before it.
  rw [← List.append_assoc, followAll_append] at hevents
  obtain ⟨reading, hbefore', hrest⟩ := Option.bind_eq_some_iff.mp hevents
  have hup : reading = true := by
    cases reading with
    | true => rfl
    | false => cases hrest
  rw [hup] at hbefore'
  obtain ⟨front, opened, middle, hsplit, hmiddle⟩ := exists_connect hbefore'
  have hchunksBefore : before = front.filterMap chunk? ++ middle.filterMap chunk? := by
    have hall := congrArg (List.filterMap chunk?) hsplit
    rw [List.filterMap_append, List.filterMap_append, List.filterMap_eq_nil_iff.mpr hsilent,
      List.append_nil, hbefore] at hall
    exact hall
  refine ⟨front, opened, middle ++ [.read chunk state], back, ?_, ?_, ?_⟩
  · rw [← List.append_assoc, hsplit]
    simp
  · intro event hmem
    rcases List.mem_append.mp hmem with hearlier | hnow
    · exact hmiddle event hearlier
    · rw [List.mem_singleton.mp hnow]
      rfl
  · rw [List.filterMap_append]
    refine (Frame.Scanner.pieces_intake capacity _ _).2 frame ?_
    rw [hchunksBefore, Frame.Scanner.intake_append] at hclosed
    rw [Frame.Scanner.intake_append]
    refine List.mem_append_right _ ?_
    change frame ∈ (Frame.Scanner.intake capacity _ [chunk]).frames
    rwa [Frame.Scanner.intake_singleton]

/-! ## Runs -/

namespace Service

variable {η : Type}

/-- Frames and the periods of the link, in every run. A frame ends in one period: it lies there
whole, or it begins with what was left open before that period and goes on with the first bytes
of the period. A wire frame that comes first behind any moment of a run, such as a reconnect, is
handed out first, if no chunk is lost meanwhile. It is handed out as it is, unless what was left
before waits for the byte of an escape marker: it then ends the frame that was left open. -/
theorem frame_ends_in_one_period (config : Config) (handler : η) :
    let fresh := Service.new config handler
    let capacity := config.assemblerCapacity.toNat
    (∀ actions, ∀ frame ∈ (fresh.run actions).frames, ∃ front state period back,
      (fresh.run actions).events = front ++ .connect state :: (period ++ back) ∧
      (∀ event ∈ period, event.isTurn = false) ∧
      EndsIn (idle.intake capacity (front.filterMap LinkEvent.chunk?)).last.taken
        (period.filterMap LinkEvent.chunk?).flatten frame) ∧
    (∀ before after content rest,
      let first := fresh.run before
      let later := first.service.run after
      let left := (idle.intake capacity first.chunks).last
      later.chunks.flatten = wireFrame content ++ rest →
      (left.intake capacity later.chunks).overflows = [] →
      later.frames =
        (if left.waits then left.taken ++ wireFrame content else wireFrame content) ::
          (idle.run rest).2) := by
  intro fresh capacity
  have hassembles : fresh.Assembles capacity idle := assembles_new config handler
  refine ⟨fun actions frame hmem => ?_, ?_⟩
  · have hframes := (fresh.takesIn_run actions capacity idle hassembles).frames_eq
    rw [hframes] at hmem
    exact LinkEvent.exists_period_of_mem_frames
      (fresh.tells_run actions (linked_new config handler)).2 hmem
  · intro before after content rest first later left hbytes hroom
    have hfirst := fresh.takesIn_run before capacity idle hassembles
    have hlater := first.service.takesIn_run after capacity left hfirst.assembles
    rw [hlater.frames_eq, Scanner.intake_of_overflows_nil hroom, hbytes, Scanner.run_append,
      Scanner.run_wireFrame_of]
    rfl

/-- A link gives `left` and is lost, and the port is opened again. -/
def lostLink (left : Bytes) : List (ServiceAction Unit) :=
  [.start, .beginTurn, .completeOpen (.scripted .success), answering left,
    .receive ⟨none, .error ⟨.brokenPipe, "gone"⟩⟩, .beginTurn, .completeOpen (.scripted .success)]

/-- Behind a frame that was lost in its middle, the first frame of the next link is whole. -/
theorem frame_ends_in_one_period_behind_lost_frame :
    let next : Bytes := [0x02, 0x10, 0x01, 0x0E, 0x5D, 0x03]
    let first := (new Config.default ()).run (lostLink [0x02, 0x10])
    let step := (new Config.default ()).run (lostLink [0x02, 0x10] ++ [answering next])
    wireFrame [0x10, 0x01] = next ∧
    (first.service.run [answering next]).frames = [next] ∧
    next ∈ step.frames ∧
    ∃ front state period back, step.events = front ++ .connect state :: (period ++ back) ∧
      (∀ event ∈ period, event.isTurn = false) ∧
      EndsIn (idle.intake 2048 (front.filterMap LinkEvent.chunk?)).last.taken
        (period.filterMap LinkEvent.chunk?).flatten next := by
  intro next first step
  obtain ⟨hends, hintact⟩ := frame_ends_in_one_period Config.default ()
  have hnext : wireFrame [0x10, 0x01] = next := by decide +kernel
  have hmem : next ∈ step.frames := by decide +kernel
  have hfirst := hintact (lostLink [0x02, 0x10]) [answering next] [0x10, 0x01] []
    (by decide +kernel) (by decide +kernel)
  have hidle : (idle.intake Config.default.assemblerCapacity.toNat first.chunks).last.waits =
      false := by decide +kernel
  refine ⟨hnext, hfirst.trans ?_, hmem, hends _ next hmem⟩
  rw [if_neg (Bool.eq_false_iff.mp hidle), hnext]
  rfl

/-- A lost link leaves an escape marker behind, which takes the start marker of the next link's
first frame: what is handed out spans both links. -/
theorem frame_spans_lost_link :
    let next : Bytes := [0x02, 0x10, 0x01, 0x0E, 0x5D, 0x03]
    let step := (new Config.default ()).run (lostLink [0x02, 0x10, 0x7D] ++ [answering next])
    wireFrame [0x10, 0x01] = next ∧
    step.frames = [[0x02, 0x10, 0x7D] ++ next] ∧
    ∀ front period back, step.events = front ++ (period ++ back) →
      (∀ event ∈ period, event.isTurn = false) →
      ∀ frame ∈ step.frames, ¬ frame <:+: (period.filterMap LinkEvent.chunk?).flatten := by
  intro next step
  have hframes : step.frames = [[0x02, 0x10, 0x7D] ++ next] := by decide +kernel
  refine ⟨by decide +kernel, hframes, fun front period back hevents hperiod frame hmem hwithin => ?_⟩
  -- No stretch without a turn has read nine bytes.
  have hlength : step.events.length = 13 := by decide +kernel
  have hshort : ∀ i ≤ 13, ∀ k ≤ 13, ((step.events.drop i).take k).all (!·.isTurn) = true →
      (((step.events.drop i).take k).filterMap LinkEvent.chunk?).flatten.length < 9 := by
    decide +kernel
  have hperiod' : (step.events.drop front.length).take period.length = period := by
    rw [hevents, List.drop_left, List.take_left]
  have hbounds : front.length + (period.length + back.length) = 13 := by
    rw [← hlength, hevents, List.length_append, List.length_append]
  have hread := hshort front.length (by omega) period.length (by omega)
  rw [hperiod'] at hread
  have hnine : frame.length = 9 := by
    rw [hframes, List.mem_singleton] at hmem
    rw [hmem]
    rfl
  have hle := hwithin.length_le
  have hlt := hread (List.all_eq_true.mpr fun event h => by rw [hperiod event h]; rfl)
  omega

end Service

end CabinetBus
