-- SUMMARY: What the port answers to reads is what a service takes in, in every run.
import CabinetBus.Proofs.Auditing

/-!
# Receiving

The reader of a service that was started opens the port and reads, and every chunk with which the
port answers is taken in as it is. So the frames handed out in a run are those of a scan with
bounded room over the answers of the port.
-/

open CabinetBus.Frame.Scanner (idle)

namespace CabinetBus

namespace Service

variable {η : Type} {s : Service η}

/-! ## Reading chunks -/

/-- A start with a port that opens at once. -/
def bringUp : List (ServiceAction η) := [.start, .beginTurn, .completeOpen (.scripted .success)]

/-- A port that answers a read with `chunk`. -/
def answering (chunk : Bytes) : ServiceAction η := .receive ⟨none, .ok chunk⟩

/-- The reader is at work on a link that is up. -/
structure Reading (s : Service η) : Prop where
  reader_eq : s.reader = .running
  hasReader : s.link.hasReader = true

theorem Reading.receive (h : s.Reading) {chunk : Bytes} (hne : chunk ≠ [])
    (hsize : chunk.length ≤ readSize) :
    (s.perform (answering chunk)).chunks = [chunk] ∧
      (s.perform (answering chunk)).service.Reading := by
  have hport : Connection.portRead ⟨none, .ok chunk⟩ readSize = .ok chunk :=
    congrArg Except.ok (List.take_of_length_le hsize)
  have hread : s.link.read readSize ⟨none, .ok chunk⟩ =
      ⟨chunk, s.link, [.portTimeout s.link.readTimeoutMs, .read chunk s.link.state]⟩ := by
    unfold Connection.read
    rw [if_pos h.hasReader, hport]
    cases chunk with
    | nil => exact absurd rfl hne
    | cons b rest => rfl
  have hstep : s.perform (answering chunk) =
      (s.absorb (s.link.read readSize ⟨none, .ok chunk⟩)).andThen (·.takeIn chunk) := by
    change s.receive _ = _
    unfold Service.receive
    rw [h.reader_eq, hread]
  have hkept (t : Service η) : (t.takeIn chunk).service.reader = t.reader ∧
      (t.takeIn chunk).service.link = t.link := by
    unfold takeIn
    split
    · exact ⟨rfl, rfl⟩
    · split <;> exact ⟨rfl, rfl⟩
  rw [hstep, ServiceStep.chunks_andThen, chunks_takeIn, List.append_nil, hread, absorb_eq]
  refine ⟨rfl, ?_, ?_⟩
  · exact (hkept _).1.trans h.reader_eq
  · exact (congrArg Connection.hasReader (hkept _).2).trans h.hasReader

theorem Reading.run (h : s.Reading) {chunks : List Bytes}
    (hchunks : ∀ chunk ∈ chunks, chunk ≠ [] ∧ chunk.length ≤ readSize) :
    (s.run (chunks.map answering)).chunks = chunks := by
  induction chunks generalizing s with
  | nil => rfl
  | cons chunk rest ih =>
      obtain ⟨hne, hsize⟩ := hchunks chunk List.mem_cons_self
      obtain ⟨hfirst, hreading⟩ := h.receive hne hsize
      rw [List.map_cons, run_cons, ServiceStep.chunks_andThen, hfirst,
        ih hreading fun piece hmem => hchunks piece (List.mem_cons_of_mem _ hmem)]
      rfl

theorem beginTurn_of_permitted (hreader : s.reader = .running) (hrunning : s.terminating = false)
    (hdown : s.link.connected = false) (hpermitted : s.link.pacing.attempt.1 = true) :
    ∃ link, s.beginTurn = .quiet { s with link, reader := .opening } := by
  have hbegin : ∃ link, s.link.begin = (.opening, link) := by
    unfold Connection.begin
    rw [if_neg (Bool.eq_false_iff.mp hdown)]
    dsimp only
    rw [if_pos hpermitted]
    exact ⟨_, rfl⟩
  obtain ⟨link, hbegin⟩ := hbegin
  refine ⟨link, ?_⟩
  unfold beginTurn
  rw [hreader]
  dsimp only
  rw [if_neg (Bool.eq_false_iff.mp hrunning), hbegin]

theorem reading_completeOpen (hreader : s.reader = .opening) :
    (s.completeOpen (.scripted .success)).service.Reading ∧
      (s.completeOpen (.scripted .success)).chunks = [] := by
  unfold completeOpen
  rw [hreader]
  dsimp only
  rw [absorb_eq]
  exact ⟨⟨rfl, rfl⟩, rfl⟩

theorem start_of_enabled {config : Config} (henabled : config.enabled = true) (handler : η) :
    (new config handler).start.2 =
      { new config handler with started := true, reader := .running, writer := .waiting } := by
  have hconfig : (new config handler).config = config := rfl
  unfold start
  rw [if_neg (by rw [hconfig, henabled]; decide)]
  rfl

/-- The first attempt is permitted, so a service that is enabled comes up. -/
theorem reading_bringUp {config : Config} (henabled : config.enabled = true) (handler : η) :
    ((new config handler).run bringUp).service.Reading ∧
      ((new config handler).run bringUp).chunks = [] := by
  obtain ⟨link, hturn⟩ : ∃ link, (new config handler).start.2.beginTurn =
      .quiet { (new config handler).start.2 with link, reader := .opening } := by
    rw [start_of_enabled henabled]
    exact beginTurn_of_permitted rfl rfl rfl (Pacing.attempt_ofEvery config.retryEvery)
  rw [bringUp, run_cons, perform, ServiceStep.quiet_andThen, run_cons, perform, hturn,
    ServiceStep.quiet_andThen, run_singleton]
  exact reading_completeOpen rfl

/-- Chunks of 1 to 256 bytes with which a port answers are all read, in order. -/
theorem chunks_run_bringUp {config : Config} (henabled : config.enabled = true) (handler : η)
    {chunks : List Bytes} (hchunks : ∀ chunk ∈ chunks, chunk ≠ [] ∧ chunk.length ≤ readSize) :
    ((new config handler).run (bringUp ++ chunks.map answering)).chunks = chunks := by
  obtain ⟨hreading, hnone⟩ := reading_bringUp henabled handler
  rw [run_append, ServiceStep.chunks_andThen, hnone, hreading.run hchunks, List.nil_append]

/-! ## Chunks and traffic -/

theorem chunks_absorb {α : Type} (s : Service η) (step : LinkStep α) :
    (s.absorb step).chunks = step.events.filterMap LinkEvent.chunk? := rfl

/-- A message on its way out is nothing that was read. -/
theorem read?_writeTraffic (c : Connection) (data : Bytes) (script : WriteScript) :
    (c.writeTraffic data script).read? = none := by
  rcases (c.write_traffic data script).2 with ⟨htraffic, _⟩ | ⟨_, htraffic, _⟩ <;>
    rw [htraffic] <;>
    rfl

theorem chunks_completeWrite (s : Service η) (script : WriteScript) :
    (s.completeWrite script).chunks =
      (s.traffic (.completeWrite script)).filterMap Traffic.read? := by
  cases hwriter : s.writer with
  | off | waiting | done =>
      rw [traffic, inFlight, completeWrite, hwriter]
      rfl
  | sending message =>
      rw [traffic, inFlight, completeWrite_of_sending hwriter, hwriter, List.map_singleton,
        List.filterMap_cons_none (read?_writeTraffic ..), ServiceStep.chunks_andThen, chunks_absorb,
        (s.link.shown_write message.content script).1]
      rfl

theorem chunks_beginTurn (s : Service η) : s.beginTurn.chunks = [] := by
  unfold beginTurn
  split
  · split
    · rw [leaveReader, ServiceStep.chunks_andThen, chunks_absorb, s.link.shown_disconnect.1]
      rfl
    · split <;> rfl
  · rfl

theorem chunks_completeOpen (s : Service η) (opener : Opener) :
    (s.completeOpen opener).chunks =
      (s.traffic (.completeOpen opener)).filterMap Traffic.read? := by
  cases hreader : s.reader with
  | off | running | done =>
      rw [traffic, completeOpen, hreader]
      rfl
  | opening =>
      rw [traffic, completeOpen, hreader, if_pos rfl, (s.link.openTraffic_other opener).1,
        ServiceStep.chunks_andThen, chunks_absorb, (s.link.shown_complete opener).1]
      rfl

/-- The reader takes in what the port answers. -/
theorem chunks_receive (s : Service η) (script : ReadScript) :
    (s.receive script).chunks = (s.traffic (.receive script)).filterMap Traffic.read? := by
  cases hreader : s.reader with
  | off | opening | done =>
      rw [traffic, receive, hreader]
      rfl
  | running =>
      rw [traffic, receive, hreader, if_pos rfl, (s.link.read_traffic readSize script).2,
        ServiceStep.chunks_andThen, chunks_takeIn, List.append_nil, chunks_absorb,
        (s.link.shown_read readSize script).1]

/-- The chunks of every part of a run are those which the port answered. -/
theorem closed_chunks : Closed (traffic (η := η))
    fun _ answered step => step.chunks = answered.filterMap Traffic.read? where
  quiet := fun _ => rfl
  andThen := fun hfirst hnext => by
    rw [ServiceStep.chunks_andThen, hfirst, hnext, List.filterMap_append]
  ending := fun _ => rfl
  dropQueue := fun _ => rfl
  move := by
    intro s action hmove
    cases action with
    | stop last => cases hmove
    | write | setHandler | start | takeNext => rfl
    | completeWrite script => exact s.chunks_completeWrite script
    | beginTurn => exact s.chunks_beginTurn
    | completeOpen opener => exact s.chunks_completeOpen opener
    | receive script => exact s.chunks_receive script

/-! ## Delivery in every run -/

/-- The inbound side of a service, in every run. The chunks are what the port answered to reads,
and of 1 to 256 bytes each. The frames handed out are those of the intake of these chunks, and the
handler is told of its overflows, and of no others but those which openers answer with. The
counters are the number of the chunks and of their bytes, of the frames, and of the chunks that
were lost. Whatever chunks a port has to give to a service that is enabled are read in some run. -/
theorem inbound_delivered (config : Config) (handler : η) (actions : List (ServiceAction η)) :
    let fresh := Service.new config handler
    let step := fresh.run actions
    let done := idle.intake config.assemblerCapacity.toNat step.chunks
    let tally := step.service.tally
    step.chunks = (fresh.log (unwound traffic) actions).filterMap Traffic.read? ∧
    (∀ chunk ∈ step.chunks, chunk ≠ [] ∧ chunk.length ≤ 256) ∧
    step.service.assembler.pending = done.last.taken ∧
    step.frames = done.frames ∧
    done.overflows.Sublist step.overflows ∧
    step.overflows.length = done.overflows.length + step.linkOverflows.length ∧
    step.linkOverflows.Sublist (actions.flatMap ServiceAction.answered) ∧
    tally.count .reads = UInt64.ofNat step.chunks.length ∧
    tally.count .readBytes = UInt64.ofNat step.chunks.flatten.length ∧
    tally.count .pops = UInt64.ofNat step.frames.length ∧
    tally.count .assemblerOverflows = UInt64.ofNat done.overflows.length ∧
    (config.enabled = true → ∀ chunks : List Bytes,
      (∀ chunk ∈ chunks, chunk ≠ [] ∧ chunk.length ≤ 256) →
        (fresh.run (bringUp ++ chunks.map answering)).chunks = chunks) := by
  intro fresh step done tally
  have h : Delivers _ _ _ _ _ step := takesIn_run _ actions _ _ (assembles_new config handler)
  have hcount (c : Counter) (hc : c.isInbound = true) :
      tally.count c = UInt64.ofNat (c.rise step.chunks done) := by
    have hzero : (Service.new config handler).tally.count c = 0 := Tally.count_zero c
    rw [h.count_eq c hc, hzero, zero_add]
  have hanswered : step.chunks = (fresh.log (unwound traffic) actions).filterMap Traffic.read? :=
    closed_chunks.run fresh actions
  refine ⟨hanswered, h.chunks_fit, h.assembles.holds.pending_eq, h.frames_eq, h.overflows_sublist,
    h.length_overflows, h.linkOverflows_sublist, hcount .reads rfl, hcount .readBytes rfl, ?_,
    hcount .assemblerOverflows rfl, fun henabled _ => chunks_run_bringUp henabled handler⟩
  rw [h.frames_eq]
  exact hcount .pops rfl

/-- A frame in two chunks behind a stray byte, a chunk for which there is no room beside the next
frame, and a frame behind it. -/
theorem inbound_delivered_overflowing :
    let config := { Config.default with assemblerCapacity := 6 }
    let chunks : List Bytes := [[0x99, 0x02, 0x10], [0x01, 0x03, 0x02, 0x20], [1, 2, 4, 5, 6],
      [0x02, 0x30, 0x03]]
    let step := (new config ()).run (bringUp ++ chunks.map answering)
    config.enabled = true ∧ (∀ chunk ∈ chunks, chunk ≠ [] ∧ chunk.length ≤ 256) ∧
      step.chunks = chunks ∧ step.frames = [[0x02, 0x10, 0x01, 0x03], [0x02, 0x30, 0x03]] ∧
      step.service.tally.count .reads = UInt64.ofNat 4 ∧
      step.service.tally.count .readBytes = UInt64.ofNat 15 ∧
      step.service.tally.count .assemblerOverflows = UInt64.ofNat 1 := by
  intro config chunks step
  have hfit : ∀ chunk ∈ chunks, chunk ≠ [] ∧ chunk.length ≤ 256 := by decide
  obtain ⟨-, -, -, hframes, -, -, -, hreads, hbytes, -, hoverflows, hread⟩ :=
    inbound_delivered config () (bringUp ++ chunks.map answering)
  have hchunks : step.chunks = chunks := hread rfl chunks hfit
  have hdone : idle.intake config.assemblerCapacity.toNat chunks =
      ⟨idle, [[0x02, 0x10, 0x01, 0x03], [0x02, 0x30, 0x03]], [⟨5, 4⟩]⟩ := by decide
  rw [hchunks] at hreads hbytes
  rw [hchunks, hdone] at hframes hoverflows
  exact ⟨rfl, hfit, hchunks, hframes, hreads, hbytes, hoverflows⟩

end Service

end CabinetBus
