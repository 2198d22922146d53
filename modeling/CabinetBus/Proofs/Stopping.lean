-- SUMMARY: A stop ends a service for good, however it goes, and leaves nothing behind.
import CabinetBus.Proofs.Following
import CabinetBus.Proofs.Inbound
import CabinetBus.Proofs.LinkRuns
import CabinetBus.Proofs.Moves

/-!
# Stopping

Between any two moves the phases of a service fit its link, its pool and its counters: an activity
that was never started or has ended holds no port and no buffer. A stop ends both activities, so
what it leaves is settled by this. Behind it no move finds anything to do.
-/

namespace CabinetBus

open LinkEvent (followAll)

/-! ## Connects and disconnects -/

namespace Tally

variable {t : Tally} {up up' : Bool}

/-- Connects lead by one while the link is up. -/
def SwitchedTo (t : Tally) (up : Bool) : Prop :=
  t.count .connects = t.count .disconnects + UInt64.ofNat up.toNat

theorem SwitchedTo.noteOne (h : t.SwitchedTo up) {event : LinkEvent}
    (hfollow : event.follow up = some up') : (t.noteOne event).SwitchedTo up' := by
  unfold SwitchedTo at h ⊢
  cases event with
  | connect =>
      cases up <;> cases hfollow
      simpa [Tally.noteOne, LinkEvent.counter?, increment, count_add] using h
  | disconnect =>
      cases up <;> cases hfollow
      simpa [Tally.noteOne, LinkEvent.counter?, increment, count_add] using h
  | wrote | read =>
      cases up <;> cases hfollow
      exact h
  | error | opening | portTimeout | portWrite | portWriteError | portFlush =>
      cases hfollow
      exact h

theorem SwitchedTo.note (h : t.SwitchedTo up) {events : List LinkEvent}
    (hfollow : followAll up events = some up') : (t.note events).SwitchedTo up' := by
  induction events generalizing t up with
  | nil =>
      cases hfollow
      exact h
  | cons event rest ih =>
      rw [LinkEvent.followAll_cons] at hfollow
      obtain ⟨next, hnext, hrest⟩ := Option.bind_eq_some_iff.mp hfollow
      exact ih (h.noteOne hnext) hrest

theorem SwitchedTo.add (h : t.SwitchedTo up) {counter : Counter} (hconnects : counter ≠ .connects)
    (hdisconnects : counter ≠ .disconnects) (value : UInt64) :
    (t.add counter value).SwitchedTo up := by
  rw [SwitchedTo, count_add, count_add, if_neg hconnects.symm, if_neg hdisconnects.symm]
  exact h

/-- A message on its way out is no connect and no disconnect. -/
theorem SwitchedTo.addMessage (h : t.SwitchedTo up) (f : Flow) (length : Nat) :
    (t.addMessage f.messages f.bytes length).SwitchedTo up := by
  rw [Tally.addMessage, increment]
  refine (h.add ?_ ?_ _).add ?_ ?_ _ <;> cases f <;> decide

end Tally

/-! ## Links between two moves -/

namespace Connection

theorem connecting_read (c : Connection) (size : Nat) (script : ReadScript) :
    (c.read size script).link.connecting = c.connecting := by
  rcases c.read_cases size script with ⟨_, _, hlink⟩ | ⟨_, _, _, _, hlink⟩ | ⟨_, _, hlink, _⟩
  · rw [hlink]
  · rw [hlink]
  · rw [hlink, connecting_disconnect]

theorem connecting_write (c : Connection) (data : Bytes) (script : WriteScript) :
    (c.write data script).link.connecting = c.connecting := by
  rcases c.write_cases data script with ⟨_, _, _, hlink⟩ | ⟨_, hlink, _⟩ | ⟨_, _, _, hlink⟩
  · rw [hlink]
  · rw [hlink, connecting_disconnect]
  · rw [hlink]

end Connection

namespace Service

variable {η : Type} {s : Service η}

/-! ## Coherence -/

/-- The phases of a service fit the rest of it: only a reader at work has a link that is up, only
one that waits for an opener has a link that is being opened, and each buffer in use is queued or
being sent. -/
structure Coherent (s : Service η) : Prop where
  paired : s.link.Paired
  reader_off_iff : s.reader = .off ↔ s.started = false
  writer_off_iff : s.writer = .off ↔ s.started = false
  down_of_ne_running : s.reader ≠ .running → s.link.connected = false
  opening_of_connecting : s.link.connecting = true → s.reader = .opening
  inUse_eq : s.pool.inUse = UInt64.ofNat (s.inFlight ++ s.queue).length
  switched : s.tally.SwitchedTo s.link.connected

theorem coherent_new (config : Config) (handler : η) :
    (Service.new config handler).Coherent where
  paired := Connection.paired_closed ..
  reader_off_iff := iff_of_true rfl rfl
  writer_off_iff := iff_of_true rfl rfl
  down_of_ne_running := fun _ => rfl
  opening_of_connecting := fun h => by cases h
  inUse_eq := rfl
  switched := by
    rw [Tally.SwitchedTo, show (Service.new config handler).tally = .zero from rfl,
      Tally.count_zero, Tally.count_zero]
    rfl

namespace Coherent

/-- What bears on messages only is coherent if each buffer in use is still queued or being sent. -/
theorem update (h : s.Coherent) {pool : BufferPool} {queue : List MessageBuffer}
    {terminating : Bool} {writer : WriterPhase} {sending : List MessageBuffer} {tally : Tally}
    (hoff : writer = .off ↔ s.writer = .off) (hsending : { s with writer }.inFlight = sending)
    (hinUse : pool.inUse = UInt64.ofNat (sending ++ queue).length)
    (hswitched : tally.SwitchedTo s.link.connected) :
    { s with pool, queue, terminating, writer, tally }.Coherent :=
  ⟨h.paired, h.reader_off_iff, hoff.trans h.writer_off_iff, h.down_of_ne_running,
    h.opening_of_connecting, hinUse.trans (by rw [← hsending]; rfl), hswitched⟩

theorem write (h : s.Coherent) (data : Bytes) : (s.write data).Coherent := by
  rcases s.write_cases data with ⟨_, heq⟩ | ⟨_, heq⟩ | ⟨_, message, heq⟩ |
    ⟨_, message, _, _, _, heq⟩
  · rwa [heq]
  · rw [heq]
    exact h.update .rfl rfl h.inUse_eq (h.switched.addMessage .omitted _)
  · rw [heq]
    refine h.update .rfl rfl ?_ (h.switched.addMessage .queueFull _)
    rw [BufferPool.inUse_release, BufferPool.inUse_acquire, add_sub_cancel_right, h.inUse_eq]
  · rw [heq]
    have hlength : (s.inFlight ++ (s.queue ++ [message])).length =
        (s.inFlight ++ s.queue).length + 1 := by
      rw [← List.append_assoc, List.length_append, List.length_singleton]
    refine h.update .rfl rfl ?_ (h.switched.addMessage .enqueued _)
    rw [BufferPool.inUse_acquire, h.inUse_eq, hlength, UInt64.ofNat_add]
    rfl

theorem start (h : s.Coherent) : s.start.2.Coherent := by
  rcases s.start_cases with heq | ⟨_, hnever, heq⟩
  · rwa [heq]
  · have hreader : s.reader = .off := h.reader_off_iff.mpr hnever
    have hinUse := h.inUse_eq
    rw [inFlight_of_off (h.writer_off_iff.mpr hnever)] at hinUse
    rw [heq]
    refine ⟨h.paired, ?_, ?_, fun hidle => ?_, fun hconnecting => ?_, hinUse, h.switched⟩
    · simp
    · simp
    · exact absurd rfl hidle
    · cases hreader.symm.trans (h.opening_of_connecting hconnecting)

theorem dropQueue (h : s.Coherent) : s.dropQueue.Coherent := by
  refine h.update .rfl rfl ?_ h.switched
  rw [BufferPool.inUse_foldl_release, h.inUse_eq, List.length_append, UInt64.ofNat_add,
    add_sub_cancel_right, List.append_nil]

theorem leaveWriter (h : s.Coherent) (hwaiting : s.writer = .waiting) :
    s.leaveWriter.Coherent := by
  have hdropped := h.dropQueue.inUse_eq
  rw [inFlight_of_waiting (show s.dropQueue.writer = .waiting from hwaiting)] at hdropped
  refine h.dropQueue.update ?_ rfl hdropped h.switched
  rw [show s.dropQueue.writer = .waiting from hwaiting]
  simp

theorem takeNext (h : s.Coherent) : s.takeNext.Coherent := by
  unfold Service.takeNext
  split
  · rename_i hwaiting _
    split
    · exact h.leaveWriter hwaiting
    · exact h
  · rename_i message rest hwaiting hqueue
    have hinUse := h.inUse_eq
    rw [inFlight_of_waiting hwaiting, hqueue, List.nil_append, List.length_cons] at hinUse
    split
    · have hreleased : { s with queue := rest, pool := s.pool.release message }.Coherent := by
        refine h.update .rfl (inFlight_of_waiting hwaiting) ?_ h.switched
        rw [BufferPool.inUse_release, hinUse, UInt64.ofNat_add]
        exact add_sub_cancel_right _ _
      exact hreleased.leaveWriter hwaiting
    · refine h.update ?_ rfl hinUse (h.switched.addMessage .dequeued _)
      rw [hwaiting]
      simp
  · exact h

/-- A turn of the reader bears on the link, and on what is counted and recorded of it. -/
theorem turn (h : s.Coherent) {link : Connection} {reader : ReaderPhase} {tally : Tally}
    {audit : List AuditEntry} (hpaired : link.Paired) (hoff : reader = .off ↔ s.reader = .off)
    (hdown : reader ≠ .running → link.connected = false)
    (hconnecting : link.connecting = true → reader = .opening)
    (hswitched : tally.SwitchedTo link.connected) :
    { s with link, reader, tally, audit }.Coherent :=
  ⟨hpaired, hoff.trans h.reader_off_iff, h.writer_off_iff, hdown, hconnecting, h.inUse_eq,
    hswitched⟩

/-- The assembler, the handler and the other counters have no part in it. -/
theorem of_rest (h : s.Coherent) {assembler : Frame.Assembler} {handler : η} {tally : Tally}
    (hswitched : tally.SwitchedTo s.link.connected) :
    { s with assembler, handler, tally }.Coherent :=
  ⟨h.paired, h.reader_off_iff, h.writer_off_iff, h.down_of_ne_running, h.opening_of_connecting,
    h.inUse_eq, hswitched⟩

/-- A step on the link that does not open it. -/
theorem absorb {α : Type} (h : s.Coherent) {step : LinkStep α} (htells : s.link.Tells step)
    (hdown : s.link.connected = false → step.link.connected = false)
    (hconnecting : step.link.connecting = s.link.connecting) :
    (s.absorb step).service.Coherent := by
  rw [absorb_eq]
  refine h.turn htells.paired .rfl (hdown ∘ h.down_of_ne_running) ?_
    (h.switched.note htells.followAll_eq)
  rw [hconnecting]
  exact h.opening_of_connecting

/-- A message that was being sent is settled once. -/
theorem settle (h : s.Coherent) {message : MessageBuffer} (hsending : s.writer = .sending message)
    (outcome : Flow) : (s.settle message outcome).Coherent := by
  have hinUse := h.inUse_eq
  rw [inFlight, hsending, List.singleton_append, List.length_cons, UInt64.ofNat_add] at hinUse
  refine h.update ?_ (inFlight_of_waiting rfl) ?_ (h.switched.addMessage outcome _)
  · rw [hsending]
    simp
  · rw [BufferPool.inUse_release, hinUse]
    exact add_sub_cancel_right _ _

theorem completeWrite (h : s.Coherent) (script : WriteScript) :
    (s.completeWrite script).service.Coherent := by
  cases hwriter : s.writer with
  | sending message =>
      have hafter := h.absorb (h.paired.write message.content script)
        (Connection.connected_write_of_down · message.content script)
        (s.link.connecting_write message.content script)
      rw [completeWrite_of_sending hwriter]
      refine hafter.settle ?_ _
      rw [absorb_eq]
      exact hwriter
  | off | waiting | done =>
      rw [Service.completeWrite, hwriter]
      exact h

theorem connecting_eq_false (h : s.Coherent) (hreader : s.reader ≠ .opening) :
    s.link.connecting = false :=
  Bool.eq_false_iff.mpr fun hconnecting => hreader (h.opening_of_connecting hconnecting)

/-- The last move of the reader takes the link down. -/
theorem leaveReader (h : s.Coherent) (hrunning : s.reader = .running) :
    s.leaveReader.service.Coherent := by
  have htells := h.paired.disconnect
  have hconnecting : s.link.disconnect.link.connecting = false := by
    rw [Connection.connecting_disconnect]
    exact h.connecting_eq_false (by rw [hrunning]; simp)
  rw [Service.leaveReader, absorb_eq]
  refine h.turn htells.paired ?_ (fun _ => s.link.connected_disconnect) (fun hopening => ?_)
    (h.switched.note htells.followAll_eq)
  · rw [hrunning]
    simp
  · cases hconnecting.symm.trans hopening

theorem beginTurn (h : s.Coherent) : s.beginTurn.service.Coherent := by
  unfold Service.beginTurn
  split
  · rename_i hrunning
    have hidle := h.connecting_eq_false (by rw [hrunning]; simp)
    split
    · exact h.leaveReader hrunning
    · rcases s.link.begin_cases with ⟨_, hbegin⟩ | ⟨_, pacing, hbegin⟩ | ⟨hdown, pacing, hbegin⟩
      · rw [hbegin]
        exact h
      · rw [hbegin]
        exact h.turn ⟨h.paired.hasReader_eq, h.paired.hasWriter_eq⟩ .rfl h.down_of_ne_running
          h.opening_of_connecting h.switched
      · rw [hbegin]
        refine h.turn ⟨h.paired.hasReader_eq, h.paired.hasWriter_eq⟩ ?_ (fun _ => hdown)
          (fun _ => rfl) h.switched
        rw [hrunning]
        simp
  · exact h

theorem completeOpen (h : s.Coherent) (opener : Opener) :
    (s.completeOpen opener).service.Coherent := by
  unfold Service.completeOpen
  split
  · rename_i hopening
    have htells := h.paired.complete (h.down_of_ne_running (by rw [hopening]; simp)) opener
    have hconnecting : (s.link.complete opener).link.connecting = false := by
      rcases s.link.complete_cases opener with ⟨_, _, _, hlink⟩ | ⟨_, _, _, _, hlink⟩ <;>
        rw [hlink]
    rw [absorb_eq]
    refine h.turn htells.paired ?_ (fun hidle => absurd rfl hidle) (fun hwaits => ?_)
      (h.switched.note htells.followAll_eq)
    · rw [hopening]
      simp
    · cases hconnecting.symm.trans hwaits
  · exact h

theorem takeIn (h : s.Coherent) (chunk : Bytes) : (s.takeIn chunk).service.Coherent := by
  have hcounted : (s.tally.addMessage .reads .readBytes chunk.length).SwitchedTo
      s.link.connected := (h.switched.add (by decide) (by decide) _).add (by decide) (by decide) _
  unfold Service.takeIn
  split
  · exact h
  · split
    · exact h.of_rest (hcounted.add (by decide) (by decide) _)
    · exact h.of_rest (hcounted.add (by decide) (by decide) _)

theorem receive (h : s.Coherent) (script : ReadScript) :
    (s.receive script).service.Coherent := by
  unfold Service.receive
  split
  · exact (h.absorb (h.paired.read readSize script)
      (Connection.connected_read_of_down · readSize script)
      (s.link.connecting_read readSize script)).takeIn _
  · exact h

end Coherent

/-! ## The last notice -/

/-- How often the reader has ended so far. -/
def endings (s : Service η) : Nat := if s.reader = .done then 1 else 0

theorem endings_pos_iff : 0 < s.endings ↔ s.reader = .done := by
  unfold endings
  split <;> simp_all

/-- The handler is told of the end of the reader when it ends, and of no frame behind that. -/
structure ToldLast (s : Service η) (step : ServiceStep η) : Prop where
  count_eq : step.notices.countP (·.2 = .terminated) + s.endings = step.service.endings
  frames_eq : s.reader = .done → step.frames = []
  ordered : step.notices.Pairwise fun earlier later =>
    earlier.2 = .terminated → later.2.frame? = none

namespace ToldLast

variable {step : ServiceStep η} {next : Service η → ServiceStep η}

theorem andThen (h : s.ToldLast step) (hnext : step.service.ToldLast (next step.service)) :
    s.ToldLast (step.andThen next) where
  count_eq := by
    rw [show (step.andThen next).notices = step.notices ++ (next step.service).notices from rfl,
      List.countP_append, Nat.add_right_comm, h.count_eq, Nat.add_comm]
    exact hnext.count_eq
  frames_eq hended := by
    have hstays : step.service.reader = .done := by
      rw [← endings_pos_iff] at hended ⊢
      exact Nat.lt_of_lt_of_le hended (h.count_eq ▸ Nat.le_add_left _ _)
    rw [ServiceStep.frames_andThen, h.frames_eq hended, hnext.frames_eq hstays]
    rfl
  ordered := by
    apply List.pairwise_append.mpr
    refine ⟨h.ordered, hnext.ordered, ?_⟩
    intro earlier hearlier later hlater hended
    have hcount : 0 < step.notices.countP (·.2 = .terminated) :=
      List.countP_pos_iff.mpr ⟨earlier, hearlier, decide_eq_true hended⟩
    have hdone : step.service.reader = .done :=
      endings_pos_iff.mp (Nat.lt_of_lt_of_le hcount (h.count_eq ▸ Nat.le_add_right _ _))
    exact List.filterMap_eq_nil_iff.mp (hnext.frames_eq hdone) later hlater

/-- A part in which the reader does not end. -/
theorem of_no_end (hreader : step.service.reader = .done ↔ s.reader = .done)
    (hnone : ∀ told ∈ step.notices, told.2 ≠ .terminated)
    (hframes : s.reader = .done → step.frames = []) : s.ToldLast step where
  count_eq := by
    have hcount : step.notices.countP (·.2 = .terminated) = 0 :=
      List.countP_eq_zero.mpr fun told hmem => by simpa using hnone told hmem
    rw [hcount, Nat.zero_add, endings, endings]
    simp only [hreader]
  frames_eq := hframes
  ordered := List.pairwise_of_forall_mem_list fun earlier hmem _ _ hended =>
    absurd hended (hnone earlier hmem)

theorem quiet {t : Service η} (hreader : t.reader = .done ↔ s.reader = .done) :
    s.ToldLast (.quiet t) :=
  of_no_end hreader (fun _ hmem => by cases hmem) fun _ => rfl

theorem absorb {α : Type} (s : Service η) (step : LinkStep α) : s.ToldLast (s.absorb step) := by
  rw [absorb_eq]
  refine of_no_end .rfl ?_ ?_
  · intro told hmem
    obtain ⟨e, _, rfl⟩ := List.mem_map.mp hmem
    simp
  · intro _
    rw [ServiceStep.frames, List.filterMap_map]
    exact List.filterMap_eq_nil_iff.mpr fun e _ => rfl

theorem completeWrite (s : Service η) (script : WriteScript) :
    s.ToldLast (s.completeWrite script) := by
  cases hwriter : s.writer with
  | sending message =>
      rw [completeWrite_of_sending hwriter]
      exact (absorb s _).andThen (.quiet .rfl)
  | off | waiting | done =>
      rw [Service.completeWrite, hwriter]
      exact .quiet .rfl

theorem beginTurn (s : Service η) : s.ToldLast s.beginTurn := by
  unfold Service.beginTurn
  split
  · rename_i hrunning
    split
    · have hreader : (s.absorb s.link.disconnect).service.reader = .running := by
        rw [absorb_eq]
        exact hrunning
      refine (absorb s _).andThen ⟨?_, fun hdone => ?_, List.pairwise_singleton _ _⟩
      · simp [endings, hreader]
      · cases hreader.symm.trans hdone
    · split
      · exact .quiet (by simp [hrunning])
      · exact .quiet .rfl
  · exact .quiet .rfl

theorem completeOpen (s : Service η) (opener : Opener) : s.ToldLast (s.completeOpen opener) := by
  unfold Service.completeOpen
  split
  · rename_i hopening
    refine (absorb s _).andThen (.quiet ?_)
    rw [absorb_eq]
    simp [hopening]
  · exact .quiet .rfl

/-- Frames are handed out by a reader at work. -/
theorem takeIn (hrunning : s.reader = .running) (chunk : Bytes) : s.ToldLast (s.takeIn chunk) := by
  unfold Service.takeIn
  split
  · exact .quiet .rfl
  · split
    · refine of_no_end .rfl ?_ ?_
      · intro told hmem
        rw [List.mem_singleton.mp hmem]
        simp
      · intro _
        rfl
    · refine of_no_end .rfl ?_ ?_
      · intro told hmem
        obtain ⟨wire, _, rfl⟩ := List.mem_map.mp hmem
        simp
      · intro hdone
        cases hrunning.symm.trans hdone

theorem receive (s : Service η) (script : ReadScript) : s.ToldLast (s.receive script) := by
  unfold Service.receive
  split
  · rename_i hrunning
    refine (absorb s _).andThen (takeIn ?_ _)
    rw [absorb_eq]
    exact hrunning
  · exact .quiet .rfl

end ToldLast

/-! ## Parts of runs -/

/-- What any part of a run does to a coherent service. -/
structure Keeps (s : Service η) (step : ServiceStep η) : Prop where
  coherent : step.service.Coherent
  toldLast : s.ToldLast step

theorem Keeps.andThen {step : ServiceStep η} {next : Service η → ServiceStep η} (h : s.Keeps step)
    (hnext : step.service.Keeps (next step.service)) : s.Keeps (step.andThen next) :=
  ⟨hnext.coherent, h.toldLast.andThen hnext.toldLast⟩

theorem keeps_ending (h : s.Coherent) : s.Keeps (.quiet { s with terminating := true }) :=
  ⟨h.update .rfl rfl h.inUse_eq h.switched, .quiet .rfl⟩

theorem keeps_dropQueue (h : s.Coherent) : s.Keeps (.quiet s.dropQueue) :=
  ⟨h.dropQueue, .quiet .rfl⟩

theorem keeps_move (h : s.Coherent) {action : ServiceAction η} (hmove : action.isStop = false) :
    s.Keeps (s.perform action) := by
  cases action with
  | write data =>
      obtain ⟨_, _, _, heq⟩ := s.write_eq_update data
      exact ⟨h.write data, .quiet (by rw [heq])⟩
  | setHandler handler => exact ⟨h.of_rest h.switched, .quiet .rfl⟩
  | start =>
      refine ⟨h.start, .quiet ?_⟩
      rcases s.start_cases with heq | ⟨_, hnever, heq⟩
      · rw [heq]
      · rw [heq, h.reader_off_iff.mpr hnever]
        simp
  | stop last => cases hmove
  | takeNext => exact ⟨h.takeNext, .quiet (by rw [reader_takeNext])⟩
  | completeWrite script => exact ⟨h.completeWrite script, .completeWrite s script⟩
  | beginTurn => exact ⟨h.beginTurn, .beginTurn s⟩
  | completeOpen opener => exact ⟨h.completeOpen opener, .completeOpen s opener⟩
  | receive script => exact ⟨h.receive script, .receive s script⟩

theorem keeps_run (h : s.Coherent) (actions : List (ServiceAction η)) :
    s.Keeps (s.run actions) := by
  have hclosed : Closed (fun _ _ => ([] : List Empty))
      fun (s : Service η) _ step => s.Coherent → s.Keeps step :=
    { quiet := fun _ h => ⟨h, .quiet .rfl⟩
      andThen := fun hfirst hnext h => (hfirst h).andThen (hnext (hfirst h).coherent)
      move := fun _ _ hmove h => keeps_move h hmove
      ending := fun _ => keeps_ending
      dropQueue := fun _ => keeps_dropQueue }
  exact hclosed.run s actions h

/-- A start needs a service that is not ending. -/
theorem started_perform (h : s.terminating = true) (action : ServiceAction η) :
    (s.perform action).service.started = s.started := by
  cases action with
  | write data => exact (s.write_kept data).1
  | setHandler handler => rfl
  | start =>
      rcases s.start_cases with heq | ⟨hrunning, _⟩
      · exact congrArg started heq
      · cases h.symm.trans hrunning
  | stop last =>
      exact (s.sameOutbound_stop last).started_eq.trans
        ({ s with terminating := true }.completeWrite_kept last.write).1
  | takeNext =>
      obtain ⟨_, _, _, _, _, heq⟩ := s.takeNext_eq_update
      show s.takeNext.started = _
      rw [heq]
  | completeWrite script => exact (s.completeWrite_kept script).1
  | beginTurn => exact s.sameOutbound_beginTurn.started_eq
  | completeOpen opener => exact (s.sameOutbound_completeOpen opener).started_eq
  | receive script => exact (s.sameOutbound_receive script).started_eq

/-- A service that is ending neither starts nor goes on. -/
theorem fixed_run (h : s.terminating = true) (actions : List (ServiceAction η)) :
    (s.run actions).service.terminating = true ∧ (s.run actions).service.started = s.started := by
  induction actions generalizing s with
  | nil => exact ⟨h, rfl⟩
  | cons action rest ih =>
      have hending : (s.perform action).service.terminating = true := by
        rw [terminating_perform, h, Bool.or_true]
      obtain ⟨hlater, hstarted⟩ := ih hending
      exact ⟨hlater, hstarted.trans (started_perform h action)⟩

/-! ## Ended services -/

/-- Neither activity is at work. -/
structure Ended (s : Service η) : Prop where
  reader : s.reader = .off ∨ s.reader = .done
  writer : s.writer = .off ∨ s.writer = .done

/-- A service that has ended for good. -/
structure Stopped (s : Service η) : Prop extends s.Ended where
  terminating : s.terminating = true
  queue : s.queue = []

namespace Ended

theorem completeWrite (h : s.Ended) (script : WriteScript) :
    s.completeWrite script = .quiet s := by
  unfold Service.completeWrite
  rcases h.writer with hwriter | hwriter <;> rw [hwriter]

theorem takeNext (h : s.Ended) : s.takeNext = s := by
  unfold Service.takeNext
  rcases h.writer with hwriter | hwriter <;> rw [hwriter]

theorem beginTurn (h : s.Ended) : s.beginTurn = .quiet s := by
  unfold Service.beginTurn
  rcases h.reader with hreader | hreader <;> rw [hreader]

theorem completeOpen (h : s.Ended) (opener : Opener) : s.completeOpen opener = .quiet s := by
  unfold Service.completeOpen
  rcases h.reader with hreader | hreader <;> rw [hreader]

theorem receive (h : s.Ended) (script : ReadScript) : s.receive script = .quiet s := by
  unfold Service.receive
  rcases h.reader with hreader | hreader <;> rw [hreader]

theorem opened (h : s.Ended) (last : LastAnswers) : s.opened last = [] := by
  unfold Service.opened
  rcases h.reader with hreader | hreader <;> simp [hreader]

end Ended

/-- Another stop finds nothing to do. -/
theorem Stopped.stop (h : s.Stopped) (last : LastAnswers) : s.stop last = .quiet s := by
  have hsame : { s with terminating := true } = s := by rw [← h.terminating]
  rw [stop_eq, hsame, winding, h.opened]
  simp only [List.cons_append, List.nil_append, run_cons, run_nil, perform, h.completeWrite,
    h.takeNext, h.beginTurn, ServiceStep.quiet_andThen, dropQueue_of_empty h.queue]

/-- No action on a stopped service does anything but change the handler. -/
theorem Stopped.perform (h : s.Stopped) (action : ServiceAction η) :
    ∃ handler, s.perform action = .quiet { s with handler } := by
  cases action with
  | write data => exact ⟨s.handler, congrArg ServiceStep.quiet (if_pos h.terminating)⟩
  | setHandler handler => exact ⟨handler, rfl⟩
  | start =>
      rcases s.start_cases with heq | ⟨hrunning, _⟩
      · exact ⟨s.handler, congrArg ServiceStep.quiet heq⟩
      · cases h.terminating.symm.trans hrunning
  | stop last => exact ⟨s.handler, h.stop last⟩
  | takeNext => exact ⟨s.handler, congrArg ServiceStep.quiet h.takeNext⟩
  | completeWrite script => exact ⟨s.handler, h.completeWrite script⟩
  | beginTurn => exact ⟨s.handler, h.beginTurn⟩
  | completeOpen opener => exact ⟨s.handler, h.completeOpen opener⟩
  | receive script => exact ⟨s.handler, h.receive script⟩

theorem Stopped.setHandler (h : s.Stopped) (handler : η) : (s.setHandler handler).Stopped :=
  ⟨⟨h.reader, h.writer⟩, h.terminating, h.queue⟩

/-- Nor does a run. -/
theorem Stopped.run (h : s.Stopped) (actions : List (ServiceAction η)) :
    ∃ handler, s.run actions = .quiet { s with handler } := by
  induction actions generalizing s with
  | nil => exact ⟨s.handler, rfl⟩
  | cons action rest ih =>
      obtain ⟨first, hfirst⟩ := h.perform action
      obtain ⟨handler, hrest⟩ := ih (h.setHandler first)
      rw [run_cons, hfirst, ServiceStep.quiet_andThen]
      exact ⟨handler, hrest⟩

theorem Stopped.start (h : s.Stopped) :
    s.start = (if s.config.enabled then .error .serviceNotRunning else .ok (), s) := by
  unfold Service.start
  rw [if_pos h.terminating]
  cases s.config.enabled <;> rfl

/-! ## Both activities end -/

theorem writer_takeNext_of_terminating (h : s.terminating = true) (hidle : s.inFlight = []) :
    s.takeNext.writer = .off ∨ s.takeNext.writer = .done := by
  unfold Service.takeNext
  cases hwriter : s.writer with
  | off => exact .inl hwriter
  | done => exact .inr hwriter
  | waiting => cases s.queue <;> simp only [if_pos h] <;> exact .inr rfl
  | sending message =>
      rw [inFlight, hwriter] at hidle
      cases hidle

theorem beginTurn_of_terminating (h : s.terminating = true) (hreader : s.reader ≠ .opening) :
    (s.beginTurn.service.reader = .off ∨ s.beginTurn.service.reader = .done) ∧
      s.beginTurn.service.writer = s.writer := by
  unfold Service.beginTurn
  cases hphase : s.reader with
  | off => exact ⟨.inl hphase, rfl⟩
  | done => exact ⟨.inr hphase, rfl⟩
  | opening => exact absurd hphase hreader
  | running =>
      simp only [if_pos h, Service.leaveReader, absorb_eq]
      exact ⟨.inr rfl, rfl⟩

theorem completeOpen_of_opening (h : s.reader = .opening) (opener : Opener) :
    (s.completeOpen opener).service.reader = .running ∧
      (s.completeOpen opener).service.writer = s.writer := by
  unfold Service.completeOpen
  simp only [h, absorb_eq]
  exact ⟨rfl, rfl⟩

theorem absorb_kept {α : Type} (s : Service η) (step : LinkStep α) :
    (s.absorb step).service.reader = s.reader ∧ (s.absorb step).service.writer = s.writer := by
  rw [absorb_eq]
  exact ⟨rfl, rfl⟩

/-- A read changes the phase of neither activity. -/
theorem receive_kept (s : Service η) (script : ReadScript) :
    (s.receive script).service.reader = s.reader ∧
      (s.receive script).service.writer = s.writer := by
  have htakeIn (t : Service η) (chunk : Bytes) :
      (t.takeIn chunk).service.reader = t.reader ∧ (t.takeIn chunk).service.writer = t.writer := by
    unfold Service.takeIn
    split
    · exact ⟨rfl, rfl⟩
    · split <;> exact ⟨rfl, rfl⟩
  unfold Service.receive
  split
  · obtain ⟨hreader, hwriter⟩ := htakeIn (s.absorb (s.link.read readSize script)).service
      (s.link.read readSize script).value
    obtain ⟨hfirst, hkept⟩ := s.absorb_kept (s.link.read readSize script)
    exact ⟨hreader.trans hfirst, hwriter.trans hkept⟩
  · exact ⟨rfl, rfl⟩

/-- Behind the answer of the opener and a read the reader waits for no opener. -/
theorem run_opened_kept (s : Service η) (last : LastAnswers) :
    (s.run (s.opened last)).service.reader ≠ .opening ∧
      (s.run (s.opened last)).service.writer = s.writer := by
  unfold Service.opened
  split
  · rename_i hopening
    obtain ⟨hrunning, hwriter⟩ := completeOpen_of_opening hopening last.opener
    obtain ⟨hreader, hkept⟩ := (s.completeOpen last.opener).service.receive_kept last.read
    refine ⟨fun hwaits => ?_, hkept.trans hwriter⟩
    cases (hreader.trans hrunning).symm.trans hwaits
  · rename_i hother
    exact ⟨hother, rfl⟩

theorem ended_winding (s : Service η) (last : LastAnswers) :
    ({ s with terminating := true }.run (s.winding last)).service.Ended := by
  let ending := { s with terminating := true }
  let sent := (ending.completeWrite last.write).service
  let left := (ending.run [.completeWrite last.write, .takeNext]).service
  let settled := (left.run (s.opened last)).service
  have hsent := ending.completeWrite_kept last.write
  have hleft : left.reader = s.reader := by
    rw [show left = sent.takeNext from rfl, reader_takeNext]
    exact reader_completeWrite ending last.write
  have hwriter : left.writer = .off ∨ left.writer = .done :=
    writer_takeNext_of_terminating hsent.2.1 hsent.2.2.2.1
  have hopened : left.opened last = s.opened last := by rw [opened, hleft, opened]
  obtain ⟨hreader, hkept⟩ := left.run_opened_kept last
  rw [hopened] at hreader hkept
  have hending : settled.terminating = true :=
    (fixed_run (fixed_run (show ending.terminating = true from rfl) _).1 _).1
  obtain ⟨hdone, hlast⟩ := beginTurn_of_terminating hending hreader
  have hended : settled.beginTurn.service.writer = .off ∨
      settled.beginTurn.service.writer = .done := by
    rwa [hlast, show settled.writer = left.writer from hkept]
  have hmoves : s.winding last =
      [.completeWrite last.write, .takeNext] ++ s.opened last ++ [.beginTurn] := rfl
  rw [hmoves, run_append, run_append]
  exact ⟨hdone, hended⟩

/-! ## Stops -/

/-- The ways a stop can go. The end is signalled; then anything may happen in any order until both
activities have ended; then the queue is dropped. -/
def Stops (s : Service η) (step : ServiceStep η) : Prop :=
  ∃ actions : List (ServiceAction η),
    let wound := { s with terminating := true }.run actions
    wound.service.Ended ∧ step = wound.andThen fun t => .quiet t.dropQueue

theorem stops_stop (s : Service η) (last : LastAnswers) : s.Stops (s.stop last) :=
  ⟨s.winding last, s.ended_winding last, s.stop_eq last⟩

variable {step : ServiceStep η}

/-- However a stop goes, it leaves a service stopped, and started only if it was. -/
theorem Stops.kept (h : s.Stops step) :
    step.service.Stopped ∧ step.service.started = s.started ∧ step.service.config = s.config := by
  obtain ⟨actions, hended, rfl⟩ := h
  let ending : Service η := { s with terminating := true }
  obtain ⟨hterminating, hstarted⟩ := fixed_run (show ending.terminating = true from rfl) actions
  exact ⟨⟨⟨hended.reader, hended.writer⟩, hterminating, rfl⟩, hstarted, ending.config_run actions⟩

theorem Stops.keeps (h : s.Stops step) (hs : s.Coherent) : s.Keeps step := by
  obtain ⟨actions, _, rfl⟩ := h
  let ending : ServiceStep η := .quiet { s with terminating := true }
  have hending : s.Keeps ending := keeps_ending hs
  have hwound : s.Keeps (ending.andThen (run · actions)) :=
    hending.andThen (keeps_run hending.coherent actions)
  exact hwound.andThen (keeps_dropQueue hwound.coherent)

/-- An ended service has no buffer in use beyond its queue, its link is down, and its reader has
ended once if it was ever started. -/
theorem Coherent.of_ended (h : s.Coherent) (hended : s.Ended) :
    s.pool.inUse = UInt64.ofNat s.queue.length ∧ s.link.state = .disconnected ∧
      s.tally.count .connects = s.tally.count .disconnects ∧
      s.endings = if s.started then 1 else 0 := by
  have hidle : s.inFlight = [] := by
    unfold inFlight
    rcases hended.writer with hwriter | hwriter <;> rw [hwriter]
  have hrests : s.reader ≠ .running ∧ s.reader ≠ .opening := by
    rcases hended.reader with hreader | hreader <;> simp [hreader]
  have hdown : s.link.connected = false := h.down_of_ne_running hrests.1
  have hswitched := h.switched
  rw [Tally.SwitchedTo, hdown] at hswitched
  refine ⟨by rw [h.inUse_eq, hidle, List.nil_append], ?_, by simpa using hswitched, ?_⟩
  · simp [Connection.state, hdown, h.connecting_eq_false hrests.2]
  · unfold endings
    cases hstarted : s.started with
    | false => simp [h.reader_off_iff.mpr hstarted]
    | true =>
        have hdone := hended.reader.resolve_left fun hoff => by
          cases hstarted.symm.trans (h.reader_off_iff.mp hoff)
        simp [hdone]

/-- A stop is terminal and leaves nothing behind, in every run and however it goes. No message
waits, no buffer is in use, the link is down, connects and disconnects are even, and a reader that
was started has told of its end once and of no frame behind that. From then on nothing but the
handler can change, nobody is told anything, and nothing happens on the link; a start is refused,
or does nothing if the service is disabled. -/
theorem stop_is_terminal (config : Config) (handler : η) (actions : List (ServiceAction η)) :
    let before := (Service.new config handler).run actions
    (∀ last, before.service.Stops (before.service.stop last)) ∧
    ∀ step, before.service.Stops step →
      let s := step.service
      let notices := before.notices ++ step.notices
      s.queue = [] ∧ s.pool.inUse = 0 ∧ s.link.state = .disconnected ∧
      s.tally.count .connects = s.tally.count .disconnects ∧ s.isRunning = false ∧
      notices.countP (·.2 = .terminated) = (if before.service.started then 1 else 0) ∧
      (notices.Pairwise fun earlier later => earlier.2 = .terminated → later.2.frame? = none) ∧
      ∀ more, ∃ latest, s.run more = .quiet { s with handler := latest } ∧
        (s.run more).service.start =
          (if config.enabled then .error .serviceNotRunning else .ok (), (s.run more).service) := by
  intro before
  refine ⟨before.service.stops_stop, fun step hstops => ?_⟩
  intro s notices
  have hnew := coherent_new config handler
  have hbefore : (Service.new config handler).Keeps before := keeps_run hnew actions
  have hkept := hstops.keeps hbefore.coherent
  obtain ⟨hstopped, hstarted, hsettings⟩ := hstops.kept
  have htold : (Service.new config handler).ToldLast (before.andThen fun _ => step) :=
    hbefore.toldLast.andThen hkept.toldLast
  have hconfig : s.config = config :=
    hsettings.trans ((Service.new config handler).config_run actions)
  obtain ⟨hinUse, hstate, hswitches, hendings⟩ := hkept.coherent.of_ended hstopped.toEnded
  refine ⟨hstopped.queue, ?_, hstate, hswitches, ?_, ?_, htold.ordered, fun more => ?_⟩
  · rw [hinUse, hstopped.queue]
    rfl
  · rw [isRunning, hstopped.terminating, Bool.not_true, Bool.and_false]
  · rw [← hstarted, ← hendings]
    exact htold.count_eq
  · obtain ⟨latest, hmore⟩ := hstopped.run more
    refine ⟨latest, hmore, ?_⟩
    rw [hmore]
    have hstart := (hstopped.setHandler latest).start
    rwa [show (s.setHandler latest).config = config from hconfig] at hstart

/-- A stop while one message is being sent and another is queued, on a link that is up. -/
theorem stop_is_terminal_sending :
    let before := (Service.new Config.default ()).run
      [.write [0x10], .start, .beginTurn, .completeOpen (.scripted .success), .takeNext,
        .write [0x11]]
    let step := before.service.stop ⟨.success, .scripted .success, ⟨none, .ok []⟩⟩
    before.service.started = true ∧ before.service.link.state = .connected ∧
      before.service.pool.inUse = 2 ∧ before.service.Stops step ∧ step.service.pool.inUse = 0 ∧
      step.service.link.state = .disconnected ∧
      (before.notices ++ step.notices).countP (·.2 = .terminated) = 1 := by
  intro before step
  obtain ⟨hstops, hends⟩ := stop_is_terminal Config.default ()
    [.write [0x10], .start, .beginTurn, .completeOpen (.scripted .success), .takeNext,
      .write [0x11]]
  obtain ⟨_, hinUse, hstate, _, _, hcount, _⟩ := hends step (hstops _)
  have hstarted : before.service.started = true := by decide +kernel
  refine ⟨hstarted, by decide +kernel, by decide +kernel, hstops _, hinUse, hstate, ?_⟩
  rw [hcount, if_pos hstarted]

end Service

end CabinetBus
