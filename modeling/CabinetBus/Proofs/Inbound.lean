-- SUMMARY: A service hands out the frames of a scan with bounded room, and counts what it takes in.
import Mathlib.Algebra.Ring.Basic
import Mathlib.Data.UInt
import CabinetBus.Proofs.Intake
import CabinetBus.Proofs.Observing
import CabinetBus.Proofs.Outbound
import CabinetBus.Proofs.Reporting
import CabinetBus.Service.Lifecycle

/-!
# The inbound side

The inbound side of a service is its assembler and four counters. Only a chunk that was
read moves it, and then as the intake of chunks says: every step of a service delivers
what the intake gives for the chunks that the step reads, steps in a row deliver what
their chunks in a row give, and so does a whole run.
-/

open CabinetBus.Frame (Scanner)
open CabinetBus.Frame.Scanner (idle)

namespace CabinetBus

/-! ## What a step shows -/

/-- The bytes that an event reads. -/
def LinkEvent.chunk? : LinkEvent → Option Bytes
  | .read data _ => some data
  | _ => none

/-- The overflow of an assembler, if a failure is one. -/
def LinkError.overflow? : LinkError → Option AssemblerOverflow
  | .assembler e => some e
  | _ => none

/-- The overflow that an opener answers with. -/
def Opener.overflow? : Opener → Option AssemblerOverflow
  | .scripted script => script.openError.bind LinkError.overflow?
  | .system _ => none

/-- The overflows that openers answer with in an action. -/
def ServiceAction.answered {η : Type} : ServiceAction η → List AssemblerOverflow
  | .completeOpen opener => opener.overflow?.toList
  | .stop last => last.opener.overflow?.toList
  | _ => []

namespace Notice

def frame? : Notice → Option Bytes
  | .frame wire => some wire
  | _ => none

/-- The overflow of an assembler that the handler is told of. -/
def overflow? : Notice → Option AssemblerOverflow
  | .failure e => e.overflow?
  | _ => none

end Notice

/-- The overflows that a link reports. -/
def LinkEvent.overflow? : LinkEvent → Option AssemblerOverflow := fun event =>
  event.failure?.bind LinkError.overflow?

namespace ServiceStep

variable {η : Type}

/-- The chunks that were read. -/
def chunks (step : ServiceStep η) : List Bytes := step.events.filterMap LinkEvent.chunk?

/-- The overflows that the link reported. -/
def linkOverflows (step : ServiceStep η) : List AssemblerOverflow :=
  step.events.filterMap LinkEvent.overflow?

/-- The frames that were handed out. -/
def frames (step : ServiceStep η) : List Bytes := step.notices.filterMap (·.2.frame?)

/-- The overflows that the handler was told of. -/
def overflows (step : ServiceStep η) : List AssemblerOverflow :=
  step.notices.filterMap (·.2.overflow?)

variable (step : ServiceStep η) (next : Service η → ServiceStep η)

theorem chunks_andThen : (step.andThen next).chunks = step.chunks ++ (next step.service).chunks :=
  List.filterMap_append

theorem linkOverflows_andThen :
    (step.andThen next).linkOverflows = step.linkOverflows ++ (next step.service).linkOverflows :=
  List.filterMap_append

theorem frames_andThen : (step.andThen next).frames = step.frames ++ (next step.service).frames :=
  List.filterMap_append

theorem overflows_andThen :
    (step.andThen next).overflows = step.overflows ++ (next step.service).overflows :=
  List.filterMap_append

end ServiceStep

/-! ## What the link shows -/

namespace LinkEvent

theorem chunk?_of_call (event : LinkEvent) (h : event.isReport = false) : event.chunk? = none := by
  cases event <;> first | rfl | cases h

theorem overflow?_of_call (event : LinkEvent) (h : event.isReport = false) :
    event.overflow? = none := by
  cases event <;> first | rfl | cases h

end LinkEvent

namespace Connection

theorem shown_disconnect (c : Connection) :
    c.disconnect.events.filterMap LinkEvent.chunk? = [] ∧
      c.disconnect.events.filterMap LinkEvent.overflow? = [] := by
  unfold disconnect
  split <;> exact ⟨rfl, rfl⟩

/-- A failure of the port is no chunk and no overflow. -/
theorem shown_failure (c : Connection) (e : IoError) (state : LinkState) :
    (LinkEvent.reports c.disconnect.events ++ [LinkEvent.error (.io e) state]).filterMap
        LinkEvent.chunk? = [] ∧
      (LinkEvent.reports c.disconnect.events ++ [LinkEvent.error (.io e) state]).filterMap
        LinkEvent.overflow? = [] := by
  rw [List.filterMap_append, List.filterMap_append,
    LinkEvent.filterMap_reports LinkEvent.chunk?_of_call,
    LinkEvent.filterMap_reports LinkEvent.overflow?_of_call, c.shown_disconnect.1,
    c.shown_disconnect.2]
  exact ⟨rfl, rfl⟩

theorem shown_write (c : Connection) (data : Bytes) (script : WriteScript) :
    (c.write data script).events.filterMap LinkEvent.chunk? = [] ∧
      (c.write data script).events.filterMap LinkEvent.overflow? = [] := by
  rw [← LinkEvent.filterMap_reports LinkEvent.chunk?_of_call,
    ← LinkEvent.filterMap_reports LinkEvent.overflow?_of_call]
  rcases c.write_cases data script with ⟨_, hreports, _⟩ | ⟨_, _, e, _, hreports⟩ |
    ⟨_, hreports, _⟩
  · rw [hreports]
    exact ⟨rfl, rfl⟩
  · rw [hreports]
    exact c.shown_failure e _
  · rw [hreports]
    exact ⟨rfl, rfl⟩

/-- A read shows the bytes that it gives. -/
theorem shown_read (c : Connection) (size : Nat) (script : ReadScript) :
    (c.read size script).events.filterMap LinkEvent.chunk? =
        (if (c.read size script).value.isEmpty then [] else [(c.read size script).value]) ∧
      (c.read size script).events.filterMap LinkEvent.overflow? = [] := by
  rw [← LinkEvent.filterMap_reports LinkEvent.chunk?_of_call,
    ← LinkEvent.filterMap_reports LinkEvent.overflow?_of_call]
  rcases c.read_cases size script with ⟨hreports, hvalue, _⟩ |
    ⟨_, hreports, hvalue, _, _⟩ | ⟨_, hvalue, _, e, hreports⟩
  · rw [hreports, hvalue]
    exact ⟨rfl, rfl⟩
  · rw [hreports, if_neg (by rwa [List.isEmpty_iff])]
    exact ⟨rfl, rfl⟩
  · rw [hreports, hvalue]
    exact c.shown_failure e _

/-- An error of an opener that is an overflow is the opener's own. -/
theorem overflow?_of_openPort {c : Connection} {opener : Opener} {e : LinkError}
    (h : (c.openPort opener).1 = .error e) :
    e.overflow? = none ∨ e.overflow? = opener.overflow? := by
  cases opener with
  | system host =>
      obtain ⟨text, rfl⟩ := SerialSettings.openOn_eq_error h
      exact .inl rfl
  | scripted script =>
      obtain ⟨openError, timeoutError, cloneError⟩ := script
      cases openError with
      | some answer =>
          cases h
          exact .inr rfl
      | none =>
          cases timeoutError with
          | some failure =>
              cases h
              exact .inl rfl
          | none =>
              cases cloneError with
              | some failure =>
                  cases h
                  exact .inl rfl
              | none => cases h

theorem shown_complete (c : Connection) (opener : Opener) :
    (c.complete opener).events.filterMap LinkEvent.chunk? = [] ∧
      ((c.complete opener).events.filterMap LinkEvent.overflow?).Sublist
        opener.overflow?.toList := by
  rw [← LinkEvent.filterMap_reports LinkEvent.chunk?_of_call,
    ← LinkEvent.filterMap_reports LinkEvent.overflow?_of_call]
  rcases c.complete_cases opener with ⟨_, hreports, _⟩ | ⟨e, herror, hreports, _⟩
  · rw [hreports]
    exact ⟨rfl, List.nil_sublist _⟩
  · have hshown (state : LinkState) : [LinkEvent.error e state].filterMap LinkEvent.overflow? =
        e.overflow?.toList := by
      rw [List.filterMap_cons, show (LinkEvent.error e state).overflow? = e.overflow? from rfl]
      cases e.overflow? <;> rfl
    rw [hreports, hshown]
    refine ⟨rfl, ?_⟩
    rcases overflow?_of_openPort herror with hnone | heq
    · rw [hnone]
      exact List.nil_sublist _
    · rw [heq]

end Connection

/-! ## Counters -/

namespace Counter

/-- Whether a counter is one of the inbound side. -/
def isInbound : Counter → Bool
  | reads | readBytes | pops | assemblerOverflows => true
  | _ => false

theorem eq_of_isInbound {c : Counter} (h : c.isInbound = true) :
    c = reads ∨ c = readBytes ∨ c = pops ∨ c = assemblerOverflows := by
  revert h
  cases c <;> decide

/-- By how much the intake of chunks raises a counter. -/
def rise (chunks : List Bytes) (done : Scanner.Intake) : Counter → Nat
  | reads => chunks.length
  | readBytes => chunks.flatten.length
  | pops => done.frames.length
  | assemblerOverflows => done.overflows.length
  | _ => 0

end Counter

theorem Flow.messages_ne_of_isInbound {f : Flow} {c : Counter} (h : c.isInbound = true) :
    c ≠ f.messages := by
  rintro rfl
  cases f <;> cases h

theorem Flow.bytes_ne_of_isInbound {f : Flow} {c : Counter} (h : c.isInbound = true) :
    c ≠ f.bytes := by
  rintro rfl
  cases f <;> cases h

namespace Tally

/-- A message on its way out is counted on the outbound side. -/
theorem count_addMessage_of_isInbound (t : Tally) (f : Flow) (length : Nat) {c : Counter}
    (h : c.isInbound = true) :
    (t.addMessage f.messages f.bytes length).count c = t.count c :=
  count_addMessage_of_ne t length (Flow.messages_ne_of_isInbound h) (Flow.bytes_ne_of_isInbound h)

theorem count_note_of_isInbound (t : Tally) (events : List LinkEvent) {c : Counter}
    (h : c.isInbound = true) : (t.note events).count c = t.count c := by
  rcases Counter.eq_of_isInbound h with rfl | rfl | rfl | rfl <;>
    exact count_note (by decide) (by decide)

end Tally

namespace Service

variable {η : Type} {s t : Service η} {capacity : Nat} {scanner : Scanner}

/-! ## The assembler of a service -/

/-- Two services with the same inbound side. -/
structure SameInbound (s t : Service η) : Prop where
  assembler_eq : t.assembler = s.assembler
  count_eq : ∀ c : Counter, c.isInbound = true → t.tally.count c = s.tally.count c

/-- The assembler follows a scan in an area of `capacity` bytes. -/
structure Assembles (s : Service η) (capacity : Nat) (scanner : Scanner) : Prop where
  holds : s.assembler.Holds scanner
  liesIn : s.assembler.LiesIn capacity

theorem Assembles.congr (h : s.Assembles capacity scanner) (hsame : SameInbound s t) :
    t.Assembles capacity scanner := by
  constructor
  · rw [hsame.assembler_eq]
    exact h.holds
  · rw [hsame.assembler_eq]
    exact h.liesIn

theorem assembles_new (config : Config) (handler : η) :
    (Service.new config handler).Assembles config.assemblerCapacity.toNat idle :=
  ⟨Frame.Assembler.holds_withCapacity _, Frame.Assembler.liesIn_withCapacity _⟩

/-! ## Delivery -/

/-- A step gives what the intake gives for `chunks`: the assembler follows the scan, the frames
are handed out, the handler is told of the overflows in order, and the counters go up. The
only other overflows that the handler is told of are those which the link reports, and the
link has them from openers, which `answered` with them. -/
structure Delivers (s : Service η) (capacity : Nat) (scanner : Scanner) (chunks : List Bytes)
    (answered : List AssemblerOverflow) (step : ServiceStep η) : Prop where
  assembles : step.service.Assembles capacity (scanner.intake capacity chunks).last
  frames_eq : step.frames = (scanner.intake capacity chunks).frames
  length_overflows : step.overflows.length =
    (scanner.intake capacity chunks).overflows.length + step.linkOverflows.length
  overflows_sublist : (scanner.intake capacity chunks).overflows.Sublist step.overflows
  linkOverflows_sublist : step.linkOverflows.Sublist answered
  count_eq : ∀ c : Counter, c.isInbound = true → step.service.tally.count c =
    s.tally.count c + UInt64.ofNat (c.rise chunks (scanner.intake capacity chunks))
  chunks_fit : ∀ chunk ∈ chunks, chunk ≠ [] ∧ chunk.length ≤ readSize

namespace Delivers

variable {chunks more : List Bytes} {answered others : List AssemblerOverflow}
  {step : ServiceStep η} {next : Service η → ServiceStep η}

/-- A step that leaves the inbound side alone and tells of no frame and no overflow. -/
theorem of_silent (h : s.Assembles capacity scanner) (hsame : SameInbound s step.service)
    (hframes : step.frames = []) (hoverflows : step.overflows = [])
    (hlink : step.linkOverflows = []) : Delivers s capacity scanner [] [] step where
  assembles := h.congr hsame
  frames_eq := hframes
  length_overflows := by
    rw [hoverflows, hlink]
    rfl
  overflows_sublist := List.nil_sublist _
  linkOverflows_sublist := by rw [hlink]
  count_eq := fun c hc => by
    rw [hsame.count_eq c hc]
    rcases Counter.eq_of_isInbound hc with rfl | rfl | rfl | rfl <;> exact (add_zero _).symm
  chunks_fit := fun chunk hmem => (List.not_mem_nil hmem).elim

/-- What two steps in a row deliver is what their chunks in a row give. -/
theorem andThen (h : Delivers s capacity scanner chunks answered step)
    (hnext : Delivers step.service capacity (scanner.intake capacity chunks).last more others
      (next step.service)) :
    Delivers s capacity scanner (chunks ++ more) (answered ++ others) (step.andThen next) := by
  constructor
  · rw [Scanner.intake_append]
    exact hnext.assembles
  · rw [Scanner.intake_append, ServiceStep.frames_andThen, h.frames_eq, hnext.frames_eq]
  · rw [Scanner.intake_append, ServiceStep.overflows_andThen, ServiceStep.linkOverflows_andThen]
    simp only [List.length_append, h.length_overflows, hnext.length_overflows]
    exact Nat.add_add_add_comm ..
  · rw [Scanner.intake_append, ServiceStep.overflows_andThen]
    exact h.overflows_sublist.append hnext.overflows_sublist
  · rw [ServiceStep.linkOverflows_andThen]
    exact h.linkOverflows_sublist.append hnext.linkOverflows_sublist
  · intro c hc
    have hafter := hnext.count_eq c hc
    rw [h.count_eq c hc, add_assoc, ← UInt64.ofNat_add] at hafter
    rw [Scanner.intake_append]
    refine hafter.trans (congrArg (fun n => _ + UInt64.ofNat n) ?_)
    rcases Counter.eq_of_isInbound hc with rfl | rfl | rfl | rfl <;>
      simp only [Counter.rise, List.length_append, List.flatten_append]
  · intro chunk hmem
    rcases List.mem_append.mp hmem with hfirst | hlater
    · exact h.chunks_fit chunk hfirst
    · exact hnext.chunks_fit chunk hlater

theorem mono (h : Delivers s capacity scanner chunks answered step)
    (hle : answered.Sublist others) : Delivers s capacity scanner chunks others step :=
  { h with linkOverflows_sublist := h.linkOverflows_sublist.trans hle }

end Delivers

/-! ## Single moves -/

/-- What happens on the link is not delivered, but its overflows are told. -/
theorem delivers_absorb {α : Type} (h : s.Assembles capacity scanner) (step : LinkStep α)
    {answered : List AssemblerOverflow}
    (hanswered : (step.events.filterMap LinkEvent.overflow?).Sublist answered) :
    Delivers s capacity scanner [] answered (s.absorb step) := by
  rw [absorb_eq]
  have htold : ((step.events.filterMap LinkEvent.failure?).map
      fun e => (s.handler, Notice.failure e)).filterMap (·.2.overflow?) =
        step.events.filterMap LinkEvent.overflow? := by
    rw [List.filterMap_map, List.filterMap_filterMap]
    rfl
  constructor
  · exact ⟨h.holds, h.liesIn⟩
  · rw [ServiceStep.frames, List.filterMap_map]
    exact List.filterMap_eq_nil_iff.mpr fun e _ => rfl
  · rw [ServiceStep.overflows, htold]
    exact (Nat.zero_add _).symm
  · exact List.nil_sublist _
  · exact hanswered
  · intro c hc
    refine (Tally.count_note_of_isInbound s.tally step.events hc).trans ?_
    rcases Counter.eq_of_isInbound hc with rfl | rfl | rfl | rfl <;> exact (add_zero _).symm
  · exact fun chunk hmem => (List.not_mem_nil hmem).elim

/-- A chunk that was read is delivered; an empty one is none. -/
theorem delivers_takeIn (h : s.Assembles capacity scanner) {chunk : Bytes}
    (hsize : chunk.length ≤ readSize) :
    Delivers s capacity scanner (if chunk.isEmpty then [] else [chunk]) [] (s.takeIn chunk) := by
  unfold takeIn
  by_cases hempty : chunk.isEmpty = true
  · rw [if_pos hempty, if_pos hempty]
    exact .of_silent h ⟨rfl, fun _ _ => rfl⟩ rfl rfl rfl
  rw [if_neg hempty, if_neg hempty]
  have hfit : ∀ piece ∈ [chunk], piece ≠ [] ∧ piece.length ≤ readSize := by
    intro piece hmem
    rw [List.mem_singleton.mp hmem]
    exact ⟨fun hnil => hempty (List.isEmpty_iff.mpr hnil), hsize⟩
  rcases h.holds.takeChunk h.liesIn chunk with ⟨e, hpush, htaken⟩ |
    ⟨full, last, hpush, hlies, hholds, htaken⟩
  · rw [← Scanner.intake_singleton] at htaken
    rw [hpush]
    constructor
    · rw [htaken]
      exact ⟨s.assembler.holds_clear, h.liesIn.clear⟩
    · rw [htaken]
      rfl
    · rw [htaken]
      rfl
    · rw [htaken]
      exact List.Sublist.refl _
    · exact List.nil_sublist _
    · intro c hc
      rw [htaken]
      rcases Counter.eq_of_isInbound hc with rfl | rfl | rfl | rfl <;>
        simp [count, countMessage, Tally.addMessage, Tally.increment, Tally.count_add,
          Counter.rise]
    · exact hfit
  · rw [← Scanner.intake_singleton] at htaken
    rw [hpush]
    have hnone : (full.drain.1.map fun wire => (s.handler, Notice.frame wire)).filterMap
        (·.2.overflow?) = [] := by
      rw [List.filterMap_map]
      exact List.filterMap_eq_nil_iff.mpr fun wire _ => rfl
    constructor
    · rw [htaken]
      exact ⟨hholds, hlies⟩
    · rw [htaken, ServiceStep.frames, List.filterMap_map]
      exact List.filterMap_some
    · rw [htaken, ServiceStep.overflows, hnone]
      rfl
    · rw [htaken]
      exact List.nil_sublist _
    · exact List.nil_sublist _
    · intro c hc
      rw [htaken]
      rcases Counter.eq_of_isInbound hc with rfl | rfl | rfl | rfl <;>
        simp [countMessage, Tally.addMessage, Tally.increment, Tally.count_add, Counter.rise]
    · exact hfit

/-! ## Actions -/

/-- Wherever the assembler is in a scan, a step delivers the chunks that it reads. -/
def TakesIn (s : Service η) (answered : List AssemblerOverflow) (step : ServiceStep η) : Prop :=
  ∀ capacity scanner, s.Assembles capacity scanner →
    Delivers s capacity scanner step.chunks answered step

namespace TakesIn

variable {answered others : List AssemblerOverflow} {step : ServiceStep η}
  {next : Service η → ServiceStep η}

theorem quiet (hsame : SameInbound s t) : s.TakesIn [] (.quiet t) := fun _ _ h =>
  .of_silent h hsame rfl rfl rfl

theorem absorb {α : Type} {step : LinkStep α}
    (hchunks : step.events.filterMap LinkEvent.chunk? = [])
    (hanswered : (step.events.filterMap LinkEvent.overflow?).Sublist answered) :
    s.TakesIn answered (s.absorb step) := by
  intro capacity scanner h
  have hnone : (s.absorb step).chunks = [] := hchunks
  rw [hnone]
  exact delivers_absorb h step hanswered

theorem andThen (h : s.TakesIn answered step) (hnext : ∀ t : Service η, t.TakesIn others (next t)) :
    s.TakesIn (answered ++ others) (step.andThen next) := by
  intro capacity scanner hs
  have hfirst := h capacity scanner hs
  rw [ServiceStep.chunks_andThen]
  exact hfirst.andThen (hnext _ capacity _ hfirst.assembles)

theorem andThen_nil (h : s.TakesIn answered step) (hnext : ∀ t : Service η, t.TakesIn [] (next t)) :
    s.TakesIn answered (step.andThen next) := by
  have hboth := h.andThen hnext
  rwa [List.append_nil] at hboth

theorem nil_andThen (h : s.TakesIn [] step) (hnext : ∀ t : Service η, t.TakesIn others (next t)) :
    s.TakesIn others (step.andThen next) := h.andThen hnext

theorem mono (h : s.TakesIn answered step) (hle : answered.Sublist others) :
    s.TakesIn others step := fun capacity scanner hs => (h capacity scanner hs).mono hle

end TakesIn

theorem sameInbound_countFlow (s : Service η) (f : Flow) (payload : Bytes) :
    SameInbound s (s.countFlow f payload) :=
  ⟨rfl, fun _ hc => Tally.count_addMessage_of_isInbound _ f _ hc⟩

theorem sameInbound_write (s : Service η) (data : Bytes) : SameInbound s (s.write data) := by
  rcases s.write_cases data with ⟨_, heq⟩ | ⟨_, heq⟩ | ⟨_, _, heq⟩ | ⟨_, _, _, _, _, heq⟩
  · rw [heq]
    exact ⟨rfl, fun _ _ => rfl⟩
  · rw [heq]
    exact s.sameInbound_countFlow _ data
  · rw [heq]
    exact ⟨rfl, fun _ hc => Tally.count_addMessage_of_isInbound _ .queueFull _ hc⟩
  · rw [heq]
    exact ⟨rfl, fun _ hc => Tally.count_addMessage_of_isInbound _ .enqueued _ hc⟩

theorem sameInbound_takeNext (s : Service η) : SameInbound s s.takeNext := by
  unfold takeNext
  split
  · split <;> exact ⟨rfl, fun _ _ => rfl⟩
  · split
    · exact ⟨rfl, fun _ _ => rfl⟩
    · exact ⟨rfl, fun _ hc => Tally.count_addMessage_of_isInbound _ .dequeued _ hc⟩
  · exact ⟨rfl, fun _ _ => rfl⟩

theorem sameInbound_start (s : Service η) : SameInbound s s.start.2 := by
  rcases s.start_cases with heq | ⟨_, _, heq⟩
  · rw [heq]
    exact ⟨rfl, fun _ _ => rfl⟩
  · rw [heq]
    exact ⟨rfl, fun _ _ => rfl⟩

theorem takesIn_completeWrite (s : Service η) (script : WriteScript) :
    s.TakesIn [] (s.completeWrite script) := by
  unfold completeWrite
  split
  · rename_i message _
    obtain ⟨hchunks, hoverflows⟩ := s.link.shown_write message.content script
    refine TakesIn.andThen_nil (.absorb hchunks (by rw [hoverflows])) fun t => .quiet ?_
    split
    · exact ⟨rfl, fun _ hc => Tally.count_addMessage_of_isInbound _ .succeeded _ hc⟩
    · exact ⟨rfl, fun _ hc => Tally.count_addMessage_of_isInbound _ .failed _ hc⟩
  · exact .quiet ⟨rfl, fun _ _ => rfl⟩

theorem takesIn_beginTurn (s : Service η) : s.TakesIn [] s.beginTurn := by
  unfold beginTurn
  split
  · split
    · obtain ⟨hchunks, hoverflows⟩ := s.link.shown_disconnect
      refine TakesIn.andThen_nil (.absorb hchunks (by rw [hoverflows])) ?_
      exact fun t _ _ h => .of_silent h ⟨rfl, fun _ _ => rfl⟩ rfl rfl rfl
    · split <;> exact .quiet ⟨rfl, fun _ _ => rfl⟩
  · exact .quiet ⟨rfl, fun _ _ => rfl⟩

theorem takesIn_completeOpen (s : Service η) (opener : Opener) :
    s.TakesIn opener.overflow?.toList (s.completeOpen opener) := by
  unfold completeOpen
  split
  · obtain ⟨hchunks, hoverflows⟩ := s.link.shown_complete opener
    exact TakesIn.andThen_nil (.absorb hchunks hoverflows) fun t => .quiet ⟨rfl, fun _ _ => rfl⟩
  · exact TakesIn.mono (.quiet ⟨rfl, fun _ _ => rfl⟩) (List.nil_sublist _)

theorem chunks_takeIn (s : Service η) (chunk : Bytes) : (s.takeIn chunk).chunks = [] := by
  unfold takeIn
  split
  · rfl
  · split <;> rfl

/-- The bytes that a read gives are the chunk that its event shows. -/
theorem takesIn_receive (s : Service η) (script : ReadScript) :
    s.TakesIn [] (s.receive script) := by
  unfold receive
  split
  · intro capacity scanner h
    obtain ⟨hchunks, hoverflows⟩ := s.link.shown_read readSize script
    have hsize : (s.link.read readSize script).value.length ≤ readSize := by
      rcases s.link.read_cases readSize script with ⟨_, hvalue, _⟩ | ⟨_, _, _, hle, _⟩ |
        ⟨_, hvalue, _⟩
      · rw [hvalue]
        exact Nat.zero_le _
      · exact hle
      · rw [hvalue]
        exact Nat.zero_le _
    have hread := delivers_absorb h (s.link.read readSize script) (by rw [hoverflows])
    rw [ServiceStep.chunks_andThen, chunks_takeIn, List.append_nil]
    change Delivers s capacity scanner
      ((s.link.read readSize script).events.filterMap LinkEvent.chunk?) [] _
    rw [hchunks]
    exact hread.andThen (delivers_takeIn hread.assembles hsize)
  · exact .quiet ⟨rfl, fun _ _ => rfl⟩

theorem takesIn_stop (s : Service η) (last : LastAnswers) :
    s.TakesIn last.opener.overflow?.toList (s.stop last) := by
  have hending : s.TakesIn [] (.quiet { s with terminating := true }) :=
    .quiet ⟨rfl, fun _ _ => rfl⟩
  have hsent := hending.andThen_nil (takesIn_completeWrite · last.write)
  have hleft := hsent.andThen_nil fun t => TakesIn.quiet (sameInbound_takeNext t)
  have hdropped (t : Service η) : t.TakesIn [] (.quiet t.dropQueue) := .quiet ⟨rfl, fun _ _ => rfl⟩
  unfold stop
  refine ((hleft.nil_andThen ?_).andThen_nil takesIn_beginTurn).andThen_nil hdropped
  intro t
  split
  · exact (t.takesIn_completeOpen last.opener).andThen_nil (·.takesIn_receive last.read)
  · exact TakesIn.mono (.quiet ⟨rfl, fun _ _ => rfl⟩) (List.nil_sublist _)

/-! ## Runs -/

theorem takesIn_perform (s : Service η) (action : ServiceAction η) :
    s.TakesIn action.answered (s.perform action) := by
  cases action with
  | write data => exact .quiet (s.sameInbound_write data)
  | setHandler handler => exact .quiet ⟨rfl, fun _ _ => rfl⟩
  | start => exact .quiet s.sameInbound_start
  | stop last => exact s.takesIn_stop last
  | takeNext => exact .quiet s.sameInbound_takeNext
  | completeWrite script => exact s.takesIn_completeWrite script
  | beginTurn => exact s.takesIn_beginTurn
  | completeOpen opener => exact s.takesIn_completeOpen opener
  | receive script => exact s.takesIn_receive script

theorem takesIn_run (s : Service η) (actions : List (ServiceAction η)) :
    s.TakesIn (actions.flatMap ServiceAction.answered) (s.run actions) := by
  induction actions generalizing s with
  | nil => exact .quiet ⟨rfl, fun _ _ => rfl⟩
  | cons action rest ih => exact (s.takesIn_perform action).andThen ih

end Service

end CabinetBus
