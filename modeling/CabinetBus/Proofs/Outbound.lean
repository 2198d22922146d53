-- SUMMARY: The moves of the outbound side of a service, and the counters that watch them.
import Mathlib.Algebra.Group.Prod
import Mathlib.Data.UInt
import Mathlib.Tactic.Abel
import CabinetBus.Proofs.Observing
import CabinetBus.Service.Lifecycle

/-!
# The outbound side

The outbound side of a service is its queue, its pool, the message being sent, and six
pairs of counters, one counter of each pair for messages and one for their bytes. Four
moves bear on it: a write call, the two moves of the writer, and the dropping of the
queue by a stop. What each of them does is said once; the reader, the link and the
handler leave the outbound side as it is.
-/

namespace CabinetBus

/-! ## Filled buffers -/

namespace MessageBuffer

/-- The length that is counted is that of the content. -/
def IsFilled (b : MessageBuffer) : Prop := b.content.length = b.length

/-- A filled buffer holds the payload and nothing of what it held before. -/
theorem content_fill {b filled : MessageBuffer} {payload : Bytes}
    (h : b.fill payload = .ok filled) : filled.content = payload ∧ filled.IsFilled := by
  unfold fill at h
  split at h
  · cases h
  · cases h
    have hcontent : (b.data.overwrite 0 payload).take payload.length = payload :=
      Bytes.take_overwrite_zero _ _
    exact ⟨hcontent, congrArg List.length hcontent⟩

theorem exists_fill {payload : Bytes} (h : payload.length ≤ capacity) (b : MessageBuffer) :
    ∃ filled, b.fill payload = .ok filled :=
  ⟨_, if_neg (Nat.not_lt.mpr h)⟩

end MessageBuffer

/-! ## Volumes -/

/-- A number of messages and the number of their bytes, both modulo `2 ^ 64`. -/
abbrev Volume : Type := UInt64 × UInt64

def Volume.of (payloads : List Bytes) : Volume :=
  (UInt64.ofNat payloads.length, UInt64.ofNat payloads.flatten.length)

@[simp] theorem Volume.of_nil : Volume.of [] = 0 := rfl

theorem Volume.of_append (left right : List Bytes) :
    Volume.of (left ++ right) = Volume.of left + Volume.of right := by
  simp only [of, List.length_append, List.flatten_append, UInt64.ofNat_add, Prod.mk_add_mk]

/-- The ways of a message that are counted, by messages and by bytes. -/
inductive Flow where
  | enqueued
  | dequeued
  | succeeded
  | failed
  | omitted
  | queueFull
  deriving DecidableEq, Repr

namespace Flow

def messages : Flow → Counter
  | enqueued => .writesEnqueued
  | dequeued => .writesDequeued
  | succeeded => .writesSucceeded
  | failed => .writesFailed
  | omitted => .writesOmitted
  | queueFull => .writesQueueFull

def bytes : Flow → Counter
  | enqueued => .writesEnqueuedBytes
  | dequeued => .writesDequeuedBytes
  | succeeded => .writesSucceededBytes
  | failed => .writesFailedBytes
  | omitted => .writesOmittedBytes
  | queueFull => .writesQueueFullBytes

theorem messages_inj {f g : Flow} : f.messages = g.messages ↔ f = g := by
  cases f <;> cases g <;> decide

theorem bytes_inj {f g : Flow} : f.bytes = g.bytes ↔ f = g := by
  cases f <;> cases g <;> decide

theorem messages_ne_bytes (f g : Flow) : f.messages ≠ g.bytes := by
  cases f <;> cases g <;> decide

end Flow

namespace Tally

def volume (t : Tally) (f : Flow) : Volume := (t.count f.messages, t.count f.bytes)

@[simp] theorem volume_zero (f : Flow) : zero.volume f = 0 := by
  simp only [volume, count_zero]
  rfl

/-- Counting a message moves the one pair of counters and no other. -/
theorem volume_addMessage (t : Tally) (f : Flow) (payload : Bytes) (g : Flow) :
    (t.addMessage f.messages f.bytes payload.length).volume g =
      t.volume g + if g = f then Volume.of [payload] else 0 := by
  have hbytes : g.bytes ≠ f.messages := (Flow.messages_ne_bytes f g).symm
  simp only [volume, addMessage, increment, count_add, Flow.messages_inj, Flow.bytes_inj,
    if_neg (Flow.messages_ne_bytes g f), if_neg hbytes]
  split
  · simp [Volume.of]
  · rw [add_zero]

theorem volume_add {t : Tally} {c : Counter} (value : UInt64) {f : Flow}
    (hmessages : f.messages ≠ c) (hbytes : f.bytes ≠ c) : (t.add c value).volume f = t.volume f := by
  simp only [volume, count_add, if_neg hmessages, if_neg hbytes]

/-- A filled buffer is counted by its content. -/
theorem volume_addMessage_of_filled (t : Tally) (f : Flow) {message : MessageBuffer}
    (h : message.IsFilled) (g : Flow) :
    (t.addMessage f.messages f.bytes message.length).volume g =
      t.volume g + if g = f then Volume.of [message.content] else 0 := by
  rw [← show message.content.length = message.length from h, volume_addMessage]

/-- What happens on the link moves none of these counters. -/
theorem volume_note (t : Tally) (events : List LinkEvent) (f : Flow) :
    (t.note events).volume f = t.volume f := by
  rw [volume, volume, count_note, count_note] <;> cases f <;> decide

end Tally

/-! ## The outbound side -/

theorem BufferPool.inUse_foldl_release (p : BufferPool) (buffers : List MessageBuffer) :
    (buffers.foldl release p).inUse = p.inUse - UInt64.ofNat buffers.length := by
  induction buffers generalizing p with
  | nil => simp
  | cons b rest ih =>
      rw [List.foldl_cons, ih, inUse_release, List.length_cons, UInt64.ofNat_add, sub_sub,
        add_comm]
      rfl

namespace Service

variable {η : Type}

/-- The message being sent, if there is one. -/
def inFlight (s : Service η) : List MessageBuffer :=
  match s.writer with
  | .sending message => [message]
  | .off | .waiting | .done => []

theorem inFlight_of_off {s : Service η} (h : s.writer = .off) : s.inFlight = [] := by
  rw [inFlight, h]

theorem inFlight_of_waiting {s : Service η} (h : s.writer = .waiting) : s.inFlight = [] := by
  rw [inFlight, h]

/-- Two services with the same outbound side. What the writer does when it sends nothing
makes no difference, but a writer that was never started stays so. -/
structure SameOutbound (s t : Service η) : Prop where
  config_eq : t.config = s.config
  started_eq : t.started = s.started
  terminating_eq : t.terminating = s.terminating
  queue_eq : t.queue = s.queue
  pool_eq : t.pool = s.pool
  inFlight_eq : t.inFlight = s.inFlight
  writer_off : s.writer = .off → t.writer = .off
  volume_eq : ∀ f, t.tally.volume f = s.tally.volume f

namespace SameOutbound

theorem refl (s : Service η) : SameOutbound s s :=
  ⟨rfl, rfl, rfl, rfl, rfl, rfl, id, fun _ => rfl⟩

theorem trans {s t u : Service η} (h : SameOutbound s t) (h' : SameOutbound t u) :
    SameOutbound s u where
  config_eq := h'.config_eq.trans h.config_eq
  started_eq := h'.started_eq.trans h.started_eq
  terminating_eq := h'.terminating_eq.trans h.terminating_eq
  queue_eq := h'.queue_eq.trans h.queue_eq
  pool_eq := h'.pool_eq.trans h.pool_eq
  inFlight_eq := h'.inFlight_eq.trans h.inFlight_eq
  writer_off := h'.writer_off ∘ h.writer_off
  volume_eq := fun f => (h'.volume_eq f).trans (h.volume_eq f)

theorem andThen {s : Service η} {step : ServiceStep η} {next : Service η → ServiceStep η}
    (h : SameOutbound s step.service) (hnext : ∀ t, SameOutbound t (next t).service) :
    SameOutbound s (step.andThen next).service := h.trans (hnext _)

theorem dropQueue {s t : Service η} (h : SameOutbound s t) :
    SameOutbound s.dropQueue t.dropQueue where
  config_eq := h.config_eq
  started_eq := h.started_eq
  terminating_eq := h.terminating_eq
  queue_eq := rfl
  pool_eq := by rw [Service.dropQueue, Service.dropQueue, h.queue_eq, h.pool_eq]
  inFlight_eq := h.inFlight_eq
  writer_off := h.writer_off
  volume_eq := h.volume_eq

/-- The link, the reader, the assembler, the handler, the other counters and the audit trail are
no part of the outbound side. -/
theorem of_rest {s : Service η} {link : Connection} {assembler : Frame.Assembler} {handler : η}
    {reader : ReaderPhase} {tally : Tally} {audit : List AuditEntry}
    (h : ∀ f, tally.volume f = s.tally.volume f) :
    SameOutbound s { s with link, assembler, handler, reader, tally, audit } :=
  ⟨rfl, rfl, rfl, rfl, rfl, rfl, id, h⟩

end SameOutbound

/-! ### Actions that leave it alone -/

theorem sameOutbound_absorb {α : Type} (s : Service η) (step : LinkStep α) :
    SameOutbound s (s.absorb step).service := by
  rw [absorb_eq]
  exact .of_rest fun f => Tally.volume_note ..

theorem sameOutbound_beginTurn (s : Service η) : SameOutbound s s.beginTurn.service := by
  unfold beginTurn
  split
  · split
    · exact (s.sameOutbound_absorb s.link.disconnect).trans (.of_rest fun _ => rfl)
    · split <;> exact .of_rest fun _ => rfl
  · exact .refl s

theorem sameOutbound_completeOpen (s : Service η) (opener : Opener) :
    SameOutbound s (s.completeOpen opener).service := by
  unfold completeOpen
  split
  · exact (s.sameOutbound_absorb (s.link.complete opener)).trans (.of_rest fun _ => rfl)
  · exact .refl s

/-- The counters of the inbound side are not those of messages. -/
theorem sameOutbound_takeIn (s : Service η) (chunk : Bytes) :
    SameOutbound s (s.takeIn chunk).service := by
  have hcounted (f : Flow) : (s.tally.addMessage .reads .readBytes chunk.length).volume f =
      s.tally.volume f := by
    rw [Tally.addMessage, Tally.increment, Tally.volume_add, Tally.volume_add] <;>
      cases f <;> decide
  unfold takeIn
  split
  · exact .refl s
  · split
    · refine .of_rest fun f => Eq.trans ?_ (hcounted f)
      exact Tally.volume_add _ (by cases f <;> decide) (by cases f <;> decide)
    · refine .of_rest fun f => Eq.trans ?_ (hcounted f)
      exact Tally.volume_add _ (by cases f <;> decide) (by cases f <;> decide)

theorem sameOutbound_receive (s : Service η) (script : ReadScript) :
    SameOutbound s (s.receive script).service := by
  unfold receive
  split
  · exact (s.sameOutbound_absorb _).trans (sameOutbound_takeIn _ _)
  · exact .refl s

/-! ## Moves on the outbound side -/

/-- A start sets both activities off, or does nothing. -/
theorem start_cases (s : Service η) :
    s.start.2 = s ∨ s.terminating = false ∧ s.started = false ∧
      s.start.2 = { s with started := true, reader := .running, writer := .waiting } := by
  unfold start
  split
  · exact .inl rfl
  · split
    · exact .inl rfl
    · rename_i hrunning
      split
      · exact .inl rfl
      · rename_i hstarted
        exact .inr ⟨Bool.eq_false_iff.mpr hrunning, Bool.eq_false_iff.mpr hstarted, rfl⟩

/-- Counts a payload on its way. -/
def countFlow (s : Service η) (f : Flow) (payload : Bytes) : Service η :=
  s.countMessage f.messages f.bytes payload.length

/-- What becomes of a write call: nothing once the service is ending; else a payload that is
too large is omitted, and one that finds the queue full is turned away. -/
def admission (s : Service η) (data : Bytes) : Option Flow :=
  if s.terminating then none
  else if MessageBuffer.capacity < data.length then some .omitted
  else if s.queueCapacity ≤ s.queue.length then some .queueFull
  else some .enqueued

theorem admission_eq_none_iff {s : Service η} {data : Bytes} :
    s.admission data = none ↔ s.terminating = true := by
  unfold admission
  by_cases h : s.terminating = true
  · simp [h]
  · rw [if_neg h]
    split
    · simp [h]
    · split <;> simp [h]

/-- A write call bears on no counter of the writer. -/
theorem admission_eq_some {s : Service η} {data : Bytes} {f : Flow}
    (h : s.admission data = some f) : f = .enqueued ∨ f = .omitted ∨ f = .queueFull := by
  unfold admission at h
  split at h
  · cases h
  · split at h
    · cases h
      exact .inr (.inl rfl)
    · split at h
      · cases h
        exact .inr (.inr rfl)
      · cases h
        exact .inl rfl

/-- A write call does one of four things. -/
theorem write_cases (s : Service η) (data : Bytes) :
    (s.admission data = none ∧ s.write data = s) ∨
    (s.admission data = some .omitted ∧ s.write data = s.countFlow .omitted data) ∨
    (s.admission data = some .queueFull ∧ ∃ message,
      s.write data =
        { s with pool := s.pool.acquire.2.release message }.countFlow .queueFull data) ∨
    (s.admission data = some .enqueued ∧ ∃ message : MessageBuffer,
      message.content = data ∧ message.IsFilled ∧ s.queue.length < s.queueCapacity ∧
      s.write data =
        { s with pool := s.pool.acquire.2, queue := s.queue ++ [message] }.countFlow .enqueued
          data) := by
  unfold admission write
  by_cases hending : s.terminating = true
  · exact .inl ⟨if_pos hending, if_pos hending⟩
  rw [if_neg hending, if_neg hending]
  by_cases hlarge : MessageBuffer.capacity < data.length
  · exact .inr (.inl ⟨if_pos hlarge, if_pos hlarge⟩)
  rw [if_neg hlarge, if_neg hlarge]
  obtain ⟨message, hfill⟩ := MessageBuffer.exists_fill (Nat.not_lt.mp hlarge) s.pool.acquire.1
  obtain ⟨hcontent, hfilled⟩ := MessageBuffer.content_fill hfill
  simp only [hfill]
  by_cases hroom : s.queue.length < s.queueCapacity
  · rw [if_pos hroom, if_neg (Nat.not_le.mpr hroom)]
    exact .inr (.inr (.inr ⟨rfl, message, hcontent, hfilled, hroom, rfl⟩))
  · rw [if_neg hroom, if_pos (Nat.not_lt.mp hroom)]
    exact .inr (.inr (.inl ⟨rfl, message, rfl⟩))

/-- A write call bears on the pool, the queue and the counters. -/
theorem write_eq_update (s : Service η) (data : Bytes) :
    ∃ pool queue tally, s.write data = { s with pool, queue, tally } := by
  rcases s.write_cases data with ⟨_, heq⟩ | ⟨_, heq⟩ | ⟨_, _, heq⟩ | ⟨_, _, _, _, _, heq⟩ <;>
    exact ⟨_, _, _, heq⟩

/-- A write call is no move of the writer, and neither starts nor ends the service. -/
theorem write_kept (s : Service η) (data : Bytes) :
    (s.write data).started = s.started ∧ (s.write data).terminating = s.terminating ∧
      (s.write data).writer = s.writer := by
  obtain ⟨pool, queue, tally, heq⟩ := s.write_eq_update data
  rw [heq]
  exact ⟨rfl, rfl, rfl⟩

/-- A write call is counted once, by its verdict. -/
theorem volume_write (s : Service η) (data : Bytes) (f : Flow) :
    (s.write data).tally.volume f =
      s.tally.volume f + if s.admission data = some f then Volume.of [data] else 0 := by
  have hcounted (g : Flow) : s.tally.volume f + (if some g = some f then Volume.of [data] else 0) =
      (s.tally.addMessage g.messages g.bytes data.length).volume f := by
    rw [Tally.volume_addMessage]
    simp only [Option.some.injEq, eq_comm]
  rcases s.write_cases data with ⟨hnone, hwrite⟩ | ⟨hverdict, hwrite⟩ |
    ⟨hverdict, message, hwrite⟩ | ⟨hverdict, message, _, _, _, hwrite⟩
  · rw [hnone, hwrite, if_neg (Option.some_ne_none f).symm, add_zero]
  · rw [hverdict, hwrite, hcounted]
    rfl
  · rw [hverdict, hwrite, hcounted]
    rfl
  · rw [hverdict, hwrite, hcounted]
    rfl

/-- A write call leaves the counters of the writer as they are. -/
theorem volume_write_of_writer (s : Service η) (data : Bytes) {f : Flow}
    (h : f = .dequeued ∨ f = .succeeded ∨ f = .failed) :
    (s.write data).tally.volume f = s.tally.volume f := by
  have hverdict : s.admission data ≠ some f := by
    intro hverdict
    rcases admission_eq_some hverdict with rfl | rfl | rfl <;> simp at h
  rw [volume_write, if_neg hverdict, add_zero]

/-- As long as the service is not ending, the writer takes the oldest message or rests. -/
theorem takeNext_cases {s : Service η} (h : s.terminating = false) :
    s.takeNext = s ∨ ∃ message rest, s.writer = .waiting ∧ s.queue = message :: rest ∧
      s.takeNext =
        { s with queue := rest, writer := .sending message }.countMessage
          Flow.dequeued.messages Flow.dequeued.bytes message.length := by
  unfold takeNext
  split
  · exact .inl (if_neg (by simp [h]))
  · rename_i message rest hwriter hqueue
    exact .inr ⟨message, rest, hwriter, hqueue, if_neg (by simp [h])⟩
  · exact .inl rfl

/-- The move of a waiting writer bears on the outbound side alone. -/
theorem takeNext_eq_update (s : Service η) : ∃ pool queue terminating writer tally,
    s.takeNext = { s with pool, queue, terminating, writer, tally } := by
  unfold takeNext
  split
  · split <;> exact ⟨_, _, _, _, _, rfl⟩
  · split <;> exact ⟨_, _, _, _, _, rfl⟩
  · exact ⟨_, _, _, _, _, rfl⟩

/-- With nothing left in the queue, dropping it does nothing. -/
theorem dropQueue_of_empty {s : Service η} (h : s.queue = []) : s.dropQueue = s := by
  rw [dropQueue, h, List.foldl_nil, ← h]

/-- Once the service is ending, the move of a waiting writer drops the queue. -/
theorem takeNext_of_terminating {s : Service η} (h : s.terminating = true) :
    s.takeNext = s ∨ SameOutbound s.dropQueue s.takeNext := by
  have hidle (hwriter : s.writer = .waiting) : [] = s.dropQueue.inFlight := by
    rw [inFlight, dropQueue, hwriter]
  have hstarted (hwriter : s.writer = .waiting) (hoff : s.writer = .off) :
      WriterPhase.done = .off := by
    rw [hwriter] at hoff
    cases hoff
  unfold takeNext
  split
  · rename_i hwriter _
    rw [if_pos h]
    exact .inr ⟨rfl, rfl, h.symm, rfl, rfl, hidle hwriter, hstarted hwriter, fun _ => rfl⟩
  · rename_i message rest hwriter hqueue
    rw [if_pos h]
    refine .inr ⟨rfl, rfl, h.symm, rfl, ?_, hidle hwriter, hstarted hwriter, fun _ => rfl⟩
    change rest.foldl BufferPool.release _ = s.queue.foldl BufferPool.release s.pool
    rw [hqueue, List.foldl_cons]
  · exact .inl rfl

theorem sameOutbound_takeNext_of_empty {s : Service η} (h : s.terminating = true)
    (hempty : s.queue = []) : SameOutbound s s.takeNext := by
  rcases takeNext_of_terminating h with heq | hsame
  · rw [heq]
    exact .refl s
  · rwa [dropQueue_of_empty hempty] at hsame

theorem sameOutbound_takeNext_dropQueue {s : Service η} (h : s.terminating = true) :
    SameOutbound s.dropQueue s.takeNext.dropQueue := by
  rcases takeNext_of_terminating h with heq | hsame
  · rw [heq]
    exact .refl _
  · have hdropped := hsame.dropQueue
    rwa [dropQueue_of_empty (show s.dropQueue.queue = [] from rfl)] at hdropped

/-- The answer of the port to a message counts it as one of two, and gives its buffer back. -/
theorem completeWrite_cases (s : Service η) (script : WriteScript) :
    (s.inFlight = [] ∧ s.completeWrite script = .quiet s) ∨
    ∃ (message : MessageBuffer) (outcome : Flow) (after : Service η),
      s.inFlight = [message] ∧ (outcome = .succeeded ∨ outcome = .failed) ∧
      SameOutbound s after ∧
      (s.completeWrite script).service =
        { after.countMessage outcome.messages outcome.bytes message.length with
          pool := after.pool.release message, writer := .waiting } := by
  unfold completeWrite
  split
  · rename_i message hwriter
    have hinFlight : s.inFlight = [message] := by rw [inFlight, hwriter]
    have hafter := s.sameOutbound_absorb (s.link.write message.content script)
    cases hanswer : (s.link.write message.content script).value with
    | ok =>
        refine .inr ⟨message, .succeeded, _, hinFlight, .inl rfl, hafter, ?_⟩
        simp only [ServiceStep.andThen, ServiceStep.quiet, hanswer]
        rfl
    | error e =>
        refine .inr ⟨message, .failed, _, hinFlight, .inr rfl, hafter, ?_⟩
        simp only [ServiceStep.andThen, ServiceStep.quiet, hanswer]
        rfl
  · rename_i hwriter
    refine .inl ⟨?_, rfl⟩
    unfold inFlight
    split
    · rename_i message hsending
      exact absurd hsending (hwriter message)
    · rfl
    · rfl
    · rfl

/-- Behind the answer of the port nothing is being sent, and the queue is as it was. -/
theorem completeWrite_kept (s : Service η) (script : WriteScript) :
    let after := (s.completeWrite script).service
    after.started = s.started ∧ after.terminating = s.terminating ∧ after.queue = s.queue ∧
      after.inFlight = [] ∧ (s.writer = .off → after.writer = .off) := by
  intro after
  rcases s.completeWrite_cases script with ⟨hidle, heq⟩ |
    ⟨message, outcome, between, hsending, _, hsame, heq⟩
  · have hsame : after = s := by
      rw [show after = (s.completeWrite script).service from rfl, heq]
      rfl
    rw [hsame]
    exact ⟨rfl, rfl, rfl, hidle, id⟩
  · rw [show after = (s.completeWrite script).service from rfl, heq]
    refine ⟨hsame.started_eq, hsame.terminating_eq, hsame.queue_eq, rfl, fun hoff => ?_⟩
    rw [inFlight_of_off hoff] at hsending
    cases hsending

/-- A stop lets the message being sent end, and drops the queue; what it does besides is not on
the outbound side. -/
theorem sameOutbound_stop (s : Service η) (last : LastAnswers) :
    SameOutbound ({ s with terminating := true }.completeWrite last.write).service.dropQueue
      (s.stop last).service := by
  have hending := ({ s with terminating := true }.completeWrite_kept last.write).2.1
  refine (sameOutbound_takeNext_dropQueue hending).trans (SameOutbound.dropQueue ?_)
  let sent : ServiceStep η :=
    ({ s with terminating := true }.completeWrite last.write).andThen fun t => .quiet t.takeNext
  refine ((SameOutbound.refl sent.service).andThen ?_).andThen sameOutbound_beginTurn
  intro t
  split
  · exact (t.sameOutbound_completeOpen last.opener).andThen (·.sameOutbound_receive last.read)
  · exact .refl t

end Service

end CabinetBus
