-- SUMMARY: Nothing happens on the link of a service but what its moves on it say, and they write what was handed over.
import CabinetBus.Proofs.Moves
import CabinetBus.Proofs.Writing

/-!
# Moves on the link

A service begins attempts to open its port, completes them, reads, writes and disconnects. Its
link, and what happens there, is what these moves in order make of a closed link, those of a
stop included. So the port is written to only for messages that were handed over: of each of
them, in their order, it has taken the front or all.
-/

namespace CabinetBus

open LinkEvent (received)

/-! ## Single moves -/

/-- What a service does with its link. -/
inductive LinkMove where
  | begin
  | complete (opener : Opener)
  | read (size : Nat) (script : ReadScript)
  | write (payload : Bytes) (script : WriteScript)
  | disconnect

/-- The payload that the link is given to write. -/
def LinkMove.payload? : LinkMove → Option Bytes
  | write payload _ => some payload
  | _ => none

namespace Connection

/-- The link behind a move, and what happens during it. -/
def move (c : Connection) : LinkMove → LinkStep Unit
  | .begin => ⟨(), c.begin.2, []⟩
  | .complete opener => ⟨(), (c.complete opener).link, (c.complete opener).events⟩
  | .read size script => ⟨(), (c.read size script).link, (c.read size script).events⟩
  | .write payload script => ⟨(), (c.write payload script).link, (c.write payload script).events⟩
  | .disconnect => c.disconnect

/-- Moves in order. -/
def moves (c : Connection) : List LinkMove → LinkStep Unit
  | [] => ⟨(), c, []⟩
  | move :: rest =>
      let later := (c.move move).link.moves rest
      ⟨(), later.link, (c.move move).events ++ later.events⟩

theorem moves_singleton (c : Connection) (move : LinkMove) : c.moves [move] = c.move move :=
  congrArg (LinkStep.mk () (c.move move).link) (List.append_nil _)

theorem moves_append (c : Connection) (front back : List LinkMove) :
    c.moves (front ++ back) =
      ⟨(), ((c.moves front).link.moves back).link,
        (c.moves front).events ++ ((c.moves front).link.moves back).events⟩ := by
  induction front generalizing c with
  | nil => rfl
  | cons first rest ih => simp only [List.cons_append, moves, ih, List.append_assoc]

/-! ## What the port takes -/

theorem received_disconnect (c : Connection) : received c.disconnect.events = [] := by
  unfold disconnect
  split <;> rfl

theorem received_fail (c : Connection) (e : LinkError) : received (c.fail e).events = [] := by
  rw [fail, LinkEvent.received_append, received_disconnect]
  rfl

theorem received_complete (c : Connection) (opener : Opener) :
    received (c.complete opener).events = [] := by
  have hasked : received (c.openPort opener).2 = [] := by
    cases opener with
    | system host => rfl
    | scripted script =>
        obtain ⟨openError, timeoutError, cloneError⟩ := script
        cases openError <;> cases timeoutError <;> cases cloneError <;> rfl
  unfold complete
  cases hport : c.openPort opener with
  | mk result events =>
      rw [hport] at hasked
      cases result <;>
        dsimp only <;>
        rw [LinkEvent.received_append, hasked] <;>
        rfl

theorem received_read (c : Connection) (size : Nat) (script : ReadScript) :
    received (c.read size script).events = [] := by
  unfold read
  split
  · split
    · rfl
    · rfl
    · split
      · rfl
      · exact c.received_fail _
  · rfl

/-- However a write ends, the port has taken the front of the message or all of it. -/
theorem received_write (c : Connection) (data : Bytes) (script : WriteScript) :
    received (c.write data script).events <+: data := by
  have htaken : received (portWrite data script).1 <+: data := by
    rw [(portWrite_eq data script).1]
    exact WriteAnswer.outcome_prefix data script.answers
  unfold write
  split
  · split
    · next events hport =>
        rw [hport] at htaken
        rwa [LinkEvent.received_append, show received [_] = [] from rfl, List.append_nil]
    · next events e hport =>
        rw [hport] at htaken
        rwa [LinkEvent.received_append, received_fail, List.append_nil]
  · exact List.nil_prefix

/-- Only a write gives the port anything. -/
theorem received_move (c : Connection) (move : LinkMove) :
    ∃ pieces, List.Forall₂ (· <+: ·) pieces move.payload?.toList ∧
      received (c.move move).events = pieces.flatten := by
  cases move with
  | begin => exact ⟨[], .nil, rfl⟩
  | complete opener => exact ⟨[], .nil, c.received_complete opener⟩
  | read size script => exact ⟨[], .nil, c.received_read size script⟩
  | disconnect => exact ⟨[], .nil, c.received_disconnect⟩
  | write payload script =>
      exact ⟨[_], .cons (c.received_write payload script) .nil, (List.append_nil _).symm⟩

/-- What the port has taken behind moves is the payloads in order, of each the front or all. -/
theorem received_moves (c : Connection) (moves : List LinkMove) :
    ∃ pieces, List.Forall₂ (· <+: ·) pieces (moves.filterMap LinkMove.payload?) ∧
      received (c.moves moves).events = pieces.flatten := by
  induction moves generalizing c with
  | nil => exact ⟨[], .nil, rfl⟩
  | cons first rest ih =>
      obtain ⟨front, hfront, htaken⟩ := c.received_move first
      obtain ⟨back, hback, hlater⟩ := ih (c.move first).link
      have hpayloads : (first :: rest).filterMap LinkMove.payload? =
          first.payload?.toList ++ rest.filterMap LinkMove.payload? := by
        rw [List.filterMap_cons]
        cases first.payload? <;> rfl
      refine ⟨front ++ back, ?_, ?_⟩
      · rw [hpayloads]
        exact List.rel_append hfront hback
      · rw [moves, LinkEvent.received_append, htaken, hlater, List.flatten_append]

end Connection

namespace Service

variable {η : Type} {s : Service η}

/-! ## Moves of a service -/

/-- What an action other than a stop does with the link. -/
def linkMoves (s : Service η) : ServiceAction η → List LinkMove
  | .completeWrite script => s.inFlight.map fun message => .write message.content script
  | .beginTurn =>
      if s.reader = .running then [if s.terminating then .disconnect else .begin] else []
  | .completeOpen opener => if s.reader = .opening then [.complete opener] else []
  | .receive script => if s.reader = .running then [.read readSize script] else []
  | _ => []

/-- The moves account for the link and for what happens there. -/
structure Uses (s : Service η) (moves : List LinkMove) (step : ServiceStep η) : Prop where
  link_eq : step.service.link = (s.link.moves moves).link
  events_eq : step.events = (s.link.moves moves).events

namespace Uses

variable {moves more : List LinkMove} {step : ServiceStep η} {next : Service η → ServiceStep η}

theorem quiet {t : Service η} (h : t.link = s.link) : s.Uses [] (.quiet t) := ⟨h, rfl⟩

theorem andThen (h : s.Uses moves step) (hnext : step.service.Uses more (next step.service)) :
    s.Uses (moves ++ more) (step.andThen next) := by
  constructor
  · rw [Connection.moves_append, ← h.link_eq]
    exact hnext.link_eq
  · rw [Connection.moves_append, ← h.link_eq, ← h.events_eq, ← hnext.events_eq]
    rfl

theorem absorb {move : LinkMove} {α : Type} {answer : LinkStep α}
    (hlink : answer.link = (s.link.move move).link)
    (hevents : answer.events = (s.link.move move).events) : s.Uses [move] (s.absorb answer) := by
  rw [absorb_eq]
  constructor
  · rw [Connection.moves_singleton]
    exact hlink
  · rw [Connection.moves_singleton]
    exact hevents

/-- What is done behind a move on the link leaves the link alone. -/
theorem andThen_quiet (h : s.Uses moves step)
    (hnext : ∀ t, (next t).service.link = t.link ∧ (next t).events = []) :
    s.Uses moves (step.andThen next) := by
  obtain ⟨hlink, hnone⟩ := hnext step.service
  constructor
  · exact hlink.trans h.link_eq
  · rw [← h.events_eq]
    change step.events ++ _ = _
    rw [hnone, List.append_nil]

end Uses

theorem uses_completeWrite (s : Service η) (script : WriteScript) :
    s.Uses (s.linkMoves (.completeWrite script)) (s.completeWrite script) := by
  cases hwriter : s.writer with
  | off | waiting | done =>
      rw [linkMoves, inFlight, completeWrite, hwriter]
      exact .quiet rfl
  | sending message =>
      rw [linkMoves, inFlight, completeWrite_of_sending hwriter, hwriter]
      exact (Uses.absorb rfl rfl).andThen_quiet fun _ => ⟨rfl, rfl⟩

/-- The port is asked to write what is being sent, and nothing else. -/
theorem events_completeWrite (s : Service η) (script : WriteScript) :
    (s.completeWrite script).events =
      (s.inFlight.map MessageBuffer.content).flatMap fun data =>
        (s.link.write data script).events := by
  cases hwriter : s.writer with
  | sending message =>
      have hsending : s.inFlight = [message] := by rw [inFlight, hwriter]
      have hevents : (s.completeWrite script).events =
          (s.link.write message.content script).events := by
        unfold completeWrite
        rw [hwriter]
        exact List.append_nil _
      rw [hsending, hevents, List.map_singleton, List.flatMap_singleton]
  | off | waiting | done =>
      rw [completeWrite, inFlight, hwriter]
      rfl

theorem uses_beginTurn (s : Service η) : s.Uses (s.linkMoves .beginTurn) s.beginTurn := by
  cases hreader : s.reader with
  | off | opening | done =>
      rw [linkMoves, beginTurn, hreader]
      exact .quiet rfl
  | running =>
      rw [linkMoves, beginTurn, hreader, if_pos rfl]
      cases hending : s.terminating with
      | true =>
          rw [if_pos rfl, if_pos rfl, leaveReader]
          exact (Uses.absorb rfl rfl).andThen_quiet fun _ => ⟨rfl, rfl⟩
      | false =>
          have hbegin : (s.link.moves [.begin]).link = s.link.begin.2 := rfl
          cases hturn : s.link.begin with
          | mk attempt link =>
              rw [hturn] at hbegin
              cases attempt <;> exact ⟨hbegin.symm, rfl⟩

theorem uses_completeOpen (s : Service η) (opener : Opener) :
    s.Uses (s.linkMoves (.completeOpen opener)) (s.completeOpen opener) := by
  cases hreader : s.reader with
  | off | running | done =>
      rw [linkMoves, completeOpen, hreader]
      exact .quiet rfl
  | opening =>
      rw [linkMoves, completeOpen, hreader, if_pos rfl]
      exact (Uses.absorb rfl rfl).andThen_quiet fun t => ⟨rfl, rfl⟩

theorem uses_receive (s : Service η) (script : ReadScript) :
    s.Uses (s.linkMoves (.receive script)) (s.receive script) := by
  cases hreader : s.reader with
  | off | opening | done =>
      rw [linkMoves, receive, hreader]
      exact .quiet rfl
  | running =>
      rw [linkMoves, receive, hreader, if_pos rfl]
      refine (Uses.absorb rfl rfl).andThen_quiet fun t => ?_
      unfold takeIn
      split
      · exact ⟨rfl, rfl⟩
      · split <;> exact ⟨rfl, rfl⟩

/-- In every part of a run the moves account for the link. -/
theorem closed_uses : Closed (linkMoves (η := η)) Uses where
  quiet := fun _ => .quiet rfl
  andThen := .andThen
  ending := fun _ => .quiet rfl
  dropQueue := fun _ => .quiet rfl
  move := by
    intro s action hmove
    cases action with
    | stop last => cases hmove
    | write data =>
        obtain ⟨_, _, _, heq⟩ := s.write_eq_update data
        exact .quiet (by rw [heq])
    | setHandler handler => exact .quiet rfl
    | start =>
        refine .quiet ?_
        rcases s.start_cases with heq | ⟨_, _, heq⟩ <;> rw [heq]
    | takeNext =>
        obtain ⟨_, _, _, _, _, heq⟩ := s.takeNext_eq_update
        exact .quiet (by rw [heq])
    | completeWrite script => exact s.uses_completeWrite script
    | beginTurn => exact s.uses_beginTurn
    | completeOpen opener => exact s.uses_completeOpen opener
    | receive script => exact s.uses_receive script

/-! ## Payloads that are written -/

/-- Only the writer writes. -/
theorem payloads_linkMoves (s : Service η) {action : ServiceAction η}
    (hstop : action.isStop = false) :
    (s.linkMoves action).filterMap LinkMove.payload? = s.handed action := by
  cases action with
  | stop last => cases hstop
  | completeWrite script =>
      rw [linkMoves, List.filterMap_map, handed, ← List.filterMap_eq_map]
      rfl
  | beginTurn =>
      rw [linkMoves]
      split
      · split <;> rfl
      · rfl
  | completeOpen | receive =>
      rw [linkMoves]
      split <;> rfl
  | write | setHandler | start | takeNext => rfl

theorem payloads_log_linkMoves (s : Service η) {moves : List (ServiceAction η)}
    (hmoves : ∀ action ∈ moves, action.isStop = false) :
    (s.log linkMoves moves).filterMap LinkMove.payload? = s.log handed moves := by
  induction moves generalizing s with
  | nil => rfl
  | cons action rest ih =>
      rw [log, log, List.filterMap_append, s.payloads_linkMoves (hmoves action List.mem_cons_self),
        ih _ fun other hmem => hmoves other (List.mem_cons_of_mem _ hmem)]

/-- A stop writes what is being sent, and no more. -/
theorem payloads_unwound_stop (s : Service η) (last : LastAnswers) :
    (s.unwound linkMoves (.stop last)).filterMap LinkMove.payload? = s.handed (.stop last) := by
  let ending := { s with terminating := true }
  have hhanded : ending.log handed (s.winding last) = s.handed (.stop last) := by
    unfold winding opened
    split <;> exact List.append_nil _
  exact (ending.payloads_log_linkMoves (s.isStop_of_mem_winding last)).trans hhanded

theorem payloads_unwound (s : Service η) (action : ServiceAction η) :
    (s.unwound linkMoves action).filterMap LinkMove.payload? = s.handed action := by
  cases hstop : action.isStop with
  | false => rw [unwound_of_move hstop, s.payloads_linkMoves hstop]
  | true =>
      cases action with
      | stop last => exact s.payloads_unwound_stop last
      | _ => cases hstop

theorem payloads_log_unwound (s : Service η) (actions : List (ServiceAction η)) :
    (s.log (unwound linkMoves) actions).filterMap LinkMove.payload? = s.log handed actions := by
  induction actions generalizing s with
  | nil => rfl
  | cons action rest ih =>
      rw [log, log, List.filterMap_append, payloads_unwound, ih]

/-! ## Conservation -/

/-- Conservation and order on the way out, in every state of every run. The queue stays within
its capacity, and each buffer in use holds a message that waits or is being sent; after whole
moves of the writer nothing is being sent, and the queued messages are all. Each counter
is the volume of what went its way: a call before the stop is enqueued, omitted or turned away,
a message that was enqueued is dequeued, waits or was released, and one that was dequeued
succeeded, failed or is being sent. The payloads that the link was given are a prefix of the
accepted ones. Nothing else is written: what happens on the link is what its moves make of it,
the payloads of its writes are those that were handed over, and the port has taken of each of
them, in their order, the front or all. -/
theorem outbound_conserved (config : Config) (handler : η) (actions : List (ServiceAction η)) :
    let fresh := Service.new config handler
    let step := fresh.run actions
    let s := step.service
    let sending := s.inFlight.map MessageBuffer.content
    let queued := s.queue.map MessageBuffer.content
    let moves := fresh.log (unwound linkMoves) actions
    s.queue.length ≤ max 1 config.writeQueueCapacity.toNat ∧
    s.pool.inUse = UInt64.ofNat (sending.length + queued.length) ∧
    (MovesWhole actions → sending = [] ∧ s.pool.inUse = UInt64.ofNat s.queue.length) ∧
    Volume.of (callsBeforeStop actions) =
      s.tally.volume .enqueued + s.tally.volume .omitted + s.tally.volume .queueFull ∧
    s.tally.volume .enqueued =
      s.tally.volume .dequeued + Volume.of queued + Volume.of (fresh.log released actions) ∧
    s.tally.volume .dequeued =
      s.tally.volume .succeeded + s.tally.volume .failed + Volume.of sending ∧
    (∀ data f, (s.write data).tally.volume f =
      s.tally.volume f + if s.admission data = some f then Volume.of [data] else 0) ∧
    (∀ script, (s.completeWrite script).events =
      sending.flatMap fun data => (s.link.write data script).events) ∧
    fresh.log accepted actions =
      fresh.log handed actions ++ sending ++ queued ++ fresh.log released actions ∧
    fresh.log handed actions <+: fresh.log accepted actions ∧
    s.link = (fresh.link.moves moves).link ∧
    step.events = (fresh.link.moves moves).events ∧
    moves.filterMap LinkMove.payload? = fresh.log handed actions ∧
    ∃ pieces, List.Forall₂ (· <+: ·) pieces (fresh.log handed actions) ∧
      received step.events = pieces.flatten := by
  intro fresh step s sending queued moves
  have hconfig : s.config = config := fresh.config_run actions
  obtain ⟨⟨hle, hinUse, _, haccepted⟩, ⟨hoffered, henqueued, hdequeued, hwritten⟩, _, _, _⟩ :=
    (Balanced.new config handler).run actions
  simp only [List.nil_append] at haccepted hoffered henqueued hdequeued hwritten
  rw [log_offered rfl] at hoffered
  rw [List.map_append, ← List.append_assoc] at haccepted
  have hsent : s.tally.volume .dequeued =
      s.tally.volume .succeeded + s.tally.volume .failed + Volume.of sending := by
    rw [hdequeued, Volume.of_append, hwritten]
  have hbuffers : s.pool.inUse = UInt64.ofNat (sending.length + queued.length) := by
    rw [List.length_map, List.length_map, ← List.length_append]
    exact hinUse
  obtain ⟨hlink, hevents⟩ : fresh.Uses moves step := closed_uses.run fresh actions
  have hpayloads : moves.filterMap LinkMove.payload? = fresh.log handed actions :=
    fresh.payloads_log_unwound actions
  have htaken := fresh.link.received_moves moves
  rw [hpayloads, ← hevents] at htaken
  refine ⟨?_, hbuffers, fun hwhole => ?_, hoffered, ?_, hsent, s.volume_write,
    s.events_completeWrite, haccepted, ?_, hlink, hevents, hpayloads, htaken⟩
  · rwa [queueCapacity, hconfig] at hle
  · have hidle : sending = [] := List.map_eq_nil_iff.mpr (hwhole.inFlight_run rfl)
    refine ⟨hidle, ?_⟩
    rw [hbuffers, hidle, List.length_nil, Nat.zero_add, List.length_map]
  · calc s.tally.volume .enqueued
      _ = Volume.of (fresh.log handed actions) + Volume.of sending + Volume.of queued +
            Volume.of (fresh.log released actions) := by
          rw [henqueued, haccepted, Volume.of_append, Volume.of_append, Volume.of_append]
      _ = s.tally.volume .dequeued + Volume.of queued + Volume.of (fresh.log released actions) := by
          rw [hsent, hwritten]
  · rw [haccepted, List.append_assoc, List.append_assoc]
    exact List.prefix_append _ _

/-- A port that takes one byte of a message and breaks when the service is stopped. The message
behind it is given back unwritten. Without the stop each message is written as it is taken, and
one buffer is in use for the message that waits. -/
theorem outbound_conserved_stopped :
    let opening : List (ServiceAction Unit) :=
      [.start, .beginTurn, .completeOpen (.scripted .success), .write [0x10, 0x11], .write [0x12]]
    let whole := opening ++ [.takeNext, .completeWrite .success]
    let breaking : WriteScript := ⟨[.accept 1, .fail ⟨.brokenPipe, "gone"⟩], none⟩
    let stopped := opening ++ [.takeNext, .stop ⟨breaking, .scripted .success, ⟨none, .ok []⟩⟩]
    (MovesWhole whole ∧
      ((new Config.default ()).run whole).service.pool.inUse = UInt64.ofNat 1) ∧
    (new Config.default ()).log handed stopped = [[0x10, 0x11]] ∧
    (new Config.default ()).log released stopped = [[0x12]] ∧
    (new Config.default ()).log accepted stopped = [[0x10, 0x11], [0x12]] ∧
    ∃ pieces : List Bytes, List.Forall₂ (· <+: ·) pieces [[0x10, 0x11]] ∧
      [0x10] = pieces.flatten := by
  intro opening whole breaking stopped
  have hwhole : MovesWhole whole := trivial
  have hqueue : ((new Config.default ()).run whole).service.queue.length = 1 := by decide +kernel
  have hidle : ((new Config.default ()).run stopped).service.inFlight = [] ∧
      ((new Config.default ()).run stopped).service.queue = [] := by
    decide +kernel
  have hhanded : (new Config.default ()).log handed stopped = [[0x10, 0x11]] := by decide +kernel
  have hreleased : (new Config.default ()).log released stopped = [[0x12]] := by decide +kernel
  have hreceived : received ((new Config.default ()).run stopped).events = [0x10] := by
    decide +kernel
  obtain ⟨-, -, hbuffers, -⟩ := outbound_conserved Config.default () whole
  obtain ⟨-, -, -, -, -, -, -, -, haccepted, -, -, -, -, pieces, hpieces, htaken⟩ :=
    outbound_conserved Config.default () stopped
  have hinUse := (hbuffers hwhole).2
  rw [hqueue] at hinUse
  rw [hhanded, hreleased, hidle.1, hidle.2] at haccepted
  rw [hhanded] at hpieces
  rw [hreceived] at htaken
  exact ⟨⟨hwhole, hinUse⟩, hhanded, hreleased, haccepted, pieces, hpieces, htaken⟩

/-- A buffer that comes back short is filled anew, and holds nothing of what it held before. -/
example :
    (new Config.default ()).log handed
      [.write [0x10, 0x11], .start, .takeNext, .completeWrite .success, .write (Bytes.zeros 129),
        .write [0x12], .takeNext, .write [0x13], .completeWrite .success] =
      [[0x10, 0x11], [0x12]] := by
  decide +kernel

end Service

end CabinetBus
