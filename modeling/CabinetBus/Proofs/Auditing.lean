-- SUMMARY: The audit trail is the traffic that the port answered, and the counters agree with it.
import CabinetBus.Proofs.Inbound
import CabinetBus.Proofs.LinkRuns
import CabinetBus.Proofs.Moves

/-!
# The audit trail

What the port answers amounts to traffic: bytes that it gave, messages that it took and flushed,
and attempts that failed. The audit trail is the traffic of a run, one entry each and in order.
The counters come about on other ways, in the two activities instead of on the link, and agree.
-/

namespace CabinetBus

/-! ## Traffic -/

/-- What a link was used for when it failed. -/
inductive Attempt where
  | opening
  | reading
  | writing
  deriving DecidableEq, Repr

/-- What answers of the port amount to. -/
inductive Traffic where
  | read (data : Bytes)
  | wrote (data : Bytes)
  | failed (attempt : Attempt) (e : LinkError)
  deriving DecidableEq, Repr

namespace Traffic

/-- The entry on the audit trail. -/
def entry : Traffic → AuditEntry
  | read data => ⟨.read, Bytes.toHex data⟩
  | wrote data => ⟨.write, Bytes.toHex data⟩
  | failed _ e => ⟨.error, e.message⟩

def read? : Traffic → Option Bytes
  | read data => some data
  | _ => none

def wrote? : Traffic → Option Bytes
  | wrote data => some data
  | _ => none

def failure? : Traffic → Option LinkError
  | failed _ e => some e
  | _ => none

/-- Whether traffic is a failure of such an attempt. -/
def isFailed (attempt : Attempt) : Traffic → Bool
  | failed other _ => other = attempt
  | _ => false

end Traffic

/-- The details of the entries for an action, in order. -/
def AuditAction.details (action : AuditAction) (entries : List AuditEntry) : List String :=
  (entries.filter (·.action = action)).map (·.detail)

/-- Whether the handler is told of a failure. -/
def Notice.isFailure : Notice → Bool
  | .failure _ => true
  | _ => false

/-! ## Traffic on a link -/

namespace Connection

/-- The answer of the port to a read. Nothing and failures that pass by are no traffic. -/
def readTraffic (c : Connection) (size : Nat) (script : ReadScript) : List Traffic :=
  if c.hasReader then
    match portRead script size with
    | .ok [] => []
    | .ok data => [.read data]
    | .error e => if e.kind.isTransient then [] else [.failed .reading (.io e)]
  else []

/-- The answer of the port to a message, which it takes and flushes or not. -/
def writeTraffic (c : Connection) (data : Bytes) (script : WriteScript) : Traffic :=
  if c.hasWriter then
    match (portWrite data script).2 with
    | .ok () => .wrote data
    | .error e => .failed .writing (.io e)
  else .failed .writing .notConnected

/-- The answer of the opener. A port that opens is no traffic yet. -/
def openTraffic (c : Connection) (opener : Opener) : List Traffic :=
  match (c.openPort opener).1 with
  | .ok () => []
  | .error e => [.failed .opening e]

end Connection

namespace LinkEvent

theorem entry?_of_call (event : LinkEvent) (h : event.isReport = false) : event.entry? = none := by
  cases event <;> first | rfl | cases h

end LinkEvent

namespace Connection

theorem entries_disconnect (c : Connection) :
    c.disconnect.events.filterMap LinkEvent.entry? = [] := by
  unfold disconnect
  split <;> rfl

/-- A failure is recorded once. -/
theorem entries_fail (c : Connection) (e : LinkError) :
    (c.fail e).events.filterMap LinkEvent.entry? = [⟨.error, e.message⟩] := by
  rw [fail, List.filterMap_append, entries_disconnect]
  rfl

/-- A read ends in one of four ways, and gives the bytes of its traffic. -/
theorem read_traffic (c : Connection) (size : Nat) (script : ReadScript) :
    (c.read size script).events.filterMap LinkEvent.entry? =
        (c.readTraffic size script).map Traffic.entry ∧
      (c.readTraffic size script).filterMap Traffic.read? =
        if (c.read size script).value.isEmpty then [] else [(c.read size script).value] := by
  unfold read readTraffic
  by_cases hreader : c.hasReader = true
  · rw [if_pos hreader, if_pos hreader]
    cases portRead script size with
    | ok data => cases data <;> exact ⟨rfl, rfl⟩
    | error e =>
        by_cases htransient : e.kind.isTransient = true
        · simp only [if_pos htransient]
          exact ⟨rfl, rfl⟩
        · simp only [if_neg htransient]
          exact ⟨c.entries_fail (.io e), rfl⟩
  · rw [if_neg hreader, if_neg hreader]
    exact ⟨rfl, rfl⟩

/-- A write is answered as its traffic says. -/
theorem write_traffic (c : Connection) (data : Bytes) (script : WriteScript) :
    (c.write data script).events.filterMap LinkEvent.entry? =
        [(c.writeTraffic data script).entry] ∧
      ((c.writeTraffic data script = .wrote data ∧ (c.write data script).value = .ok ()) ∨
        ∃ e, c.writeTraffic data script = .failed .writing e ∧
          (c.write data script).value = .error e) := by
  have hcalls : (portWrite data script).1.filterMap LinkEvent.entry? = [] := by
    rw [← LinkEvent.filterMap_reports LinkEvent.entry?_of_call, reports_portWrite]
    rfl
  unfold write writeTraffic
  by_cases hwriter : c.hasWriter = true
  · rw [if_pos hwriter, if_pos hwriter]
    cases hport : portWrite data script with
    | mk events answer =>
        rw [hport] at hcalls
        cases answer with
        | ok =>
            refine ⟨?_, .inl ⟨rfl, rfl⟩⟩
            dsimp only
            rw [List.filterMap_append, hcalls]
            rfl
        | error e =>
            refine ⟨?_, .inr ⟨_, rfl, rfl⟩⟩
            dsimp only
            rw [List.filterMap_append, hcalls]
            exact c.entries_fail (.io e)
  · rw [if_neg hwriter, if_neg hwriter]
    exact ⟨rfl, .inr ⟨_, rfl, rfl⟩⟩

/-- Only an opener that fails is recorded. -/
theorem complete_traffic (c : Connection) (opener : Opener) :
    (c.complete opener).events.filterMap LinkEvent.entry? =
      (c.openTraffic opener).map Traffic.entry := by
  rw [← LinkEvent.filterMap_reports LinkEvent.entry?_of_call]
  rcases c.complete_cases opener with ⟨hport, hreports, _⟩ | ⟨e, hport, hreports, _⟩
  · rw [hreports, openTraffic, hport]
    rfl
  · rw [hreports, openTraffic, hport]
    rfl

/-- Neither the answer of an opener nor that of a read is a message. -/
theorem openTraffic_other (c : Connection) (opener : Opener) :
    (c.openTraffic opener).filterMap Traffic.read? = [] ∧
      (c.openTraffic opener).filterMap Traffic.wrote? = [] ∧
      (c.openTraffic opener).countP (Traffic.isFailed .writing) = 0 := by
  unfold openTraffic
  split <;> exact ⟨rfl, rfl, rfl⟩

theorem readTraffic_other (c : Connection) (size : Nat) (script : ReadScript) :
    (c.readTraffic size script).filterMap Traffic.wrote? = [] ∧
      (c.readTraffic size script).countP (Traffic.isFailed .writing) = 0 := by
  unfold readTraffic
  split
  · split
    · exact ⟨rfl, rfl⟩
    · exact ⟨rfl, rfl⟩
    · split <;> exact ⟨rfl, rfl⟩
  · exact ⟨rfl, rfl⟩

end Connection

/-! ## Counts of what was read -/

/-- The chunks that were read and their bytes. -/
def Tally.inbound (t : Tally) : Volume := (t.count .reads, t.count .readBytes)

theorem Tally.inbound_note (t : Tally) (events : List LinkEvent) :
    (t.note events).inbound = t.inbound := by
  rw [inbound, inbound, count_note (by decide) (by decide), count_note (by decide) (by decide)]

theorem Tally.inbound_addMessage (t : Tally) (f : Flow) (length : Nat) :
    (t.addMessage f.messages f.bytes length).inbound = t.inbound := by
  rw [inbound, inbound, count_addMessage_of_isInbound t f length rfl,
    count_addMessage_of_isInbound t f length rfl]

/-- A message of one flow is none of another. -/
theorem Tally.volume_addMessage_of_ne (t : Tally) {f g : Flow} (h : g ≠ f) (length : Nat) :
    (t.addMessage f.messages f.bytes length).volume g = t.volume g := by
  rw [addMessage, increment]
  rw [volume_add _ (Flow.messages_ne_bytes g f) (mt Flow.bytes_inj.mp h)]
  exact volume_add _ (mt Flow.messages_inj.mp h) (Flow.messages_ne_bytes f g).symm

namespace Service

variable {η : Type} {s t : Service η}

theorem SameInbound.inbound_eq (h : SameInbound s t) : t.tally.inbound = s.tally.inbound := by
  rw [Tally.inbound, h.count_eq .reads rfl, h.count_eq .readBytes rfl, Tally.inbound]

theorem inbound_takeIn (s : Service η) (chunk : Bytes) :
    (s.takeIn chunk).service.tally.inbound =
      s.tally.inbound + Volume.of (if chunk.isEmpty then [] else [chunk]) := by
  unfold takeIn
  split
  · rw [Volume.of_nil, add_zero]
    rfl
  · split <;>
      simp [Tally.inbound, Volume.of, count, countMessage, Tally.addMessage, Tally.increment,
        Tally.count_add]

/-- Taking in a chunk records nothing, whether it fits the assembler or not. -/
theorem audit_takeIn (s : Service η) (chunk : Bytes) :
    (s.takeIn chunk).service.audit = s.audit := by
  unfold takeIn
  split
  · rfl
  · split <;> rfl

theorem audit_write (s : Service η) (data : Bytes) : (s.write data).audit = s.audit := by
  obtain ⟨_, _, _, heq⟩ := s.write_eq_update data
  rw [heq]

theorem audit_start (s : Service η) : s.start.2.audit = s.audit := by
  rcases s.start_cases with heq | ⟨_, _, heq⟩ <;> rw [heq]

theorem audit_takeNext (s : Service η) : s.takeNext.audit = s.audit := by
  obtain ⟨_, _, _, _, _, heq⟩ := s.takeNext_eq_update
  rw [heq]

/-! ## Filled messages -/

/-- Every message that waits or is being sent is filled. -/
def Filled (s : Service η) : Prop := ∀ message ∈ s.inFlight ++ s.queue, message.IsFilled

namespace Filled

theorem mono (h : s.Filled) (hmem : ∀ message ∈ t.inFlight ++ t.queue,
    message ∈ s.inFlight ++ s.queue) : t.Filled :=
  fun message hother => h message (hmem message hother)

theorem congr (h : s.Filled) (hsame : SameOutbound s t) : t.Filled := by
  unfold Filled
  rw [hsame.inFlight_eq, hsame.queue_eq]
  exact h

theorem write (h : s.Filled) (data : Bytes) : (s.write data).Filled := by
  rcases s.write_cases data with ⟨_, heq⟩ | ⟨_, heq⟩ | ⟨_, _, heq⟩ | ⟨_, added, _, hfilled, _, heq⟩
  · rwa [heq]
  · rw [heq]
    exact h
  · rw [heq]
    exact h
  · rw [heq]
    intro message hmem
    change message ∈ s.inFlight ++ (s.queue ++ [added]) at hmem
    rw [← List.append_assoc, List.mem_append, List.mem_singleton] at hmem
    rcases hmem with hmem | rfl
    · exact h message hmem
    · exact hfilled

theorem start (h : s.Filled) : s.start.2.Filled := by
  rcases s.start_cases with heq | ⟨_, _, heq⟩
  · rwa [heq]
  · rw [heq]
    exact h.mono fun message hmem => List.mem_append_right _ hmem

theorem takeNext (h : s.Filled) : s.takeNext.Filled := by
  cases hending : s.terminating with
  | true =>
      rcases takeNext_of_terminating hending with heq | hsame
      · rwa [heq]
      · refine Filled.congr (h.mono fun message hmem => ?_) hsame
        rw [show s.dropQueue.queue = [] from rfl, List.append_nil] at hmem
        exact List.mem_append_left _ hmem
  | false =>
      rcases takeNext_cases hending with heq | ⟨message, rest, _, hqueue, heq⟩
      · rwa [heq]
      · rw [heq]
        refine h.mono fun other hmem => List.mem_append_right _ ?_
        rwa [hqueue]

theorem completeWrite (h : s.Filled) (script : WriteScript) :
    (s.completeWrite script).service.Filled := by
  obtain ⟨_, _, hqueue, hidle, _⟩ := s.completeWrite_kept script
  refine h.mono fun message hmem => ?_
  rw [hidle, hqueue] at hmem
  exact List.mem_append_right _ hmem

end Filled

/-! ## Accounts -/

/-- What the answers of the port in a move amount to. -/
def traffic (s : Service η) : ServiceAction η → List Traffic
  | .receive script => if s.reader = .running then s.link.readTraffic readSize script else []
  | .completeOpen opener => if s.reader = .opening then s.link.openTraffic opener else []
  | .completeWrite script =>
      s.inFlight.map fun message => s.link.writeTraffic message.content script
  | _ => []

/-- A part of a run puts its traffic on the audit trail, in order, and counts it. -/
structure Accounts (s : Service η) (traffic : List Traffic) (step : ServiceStep η) : Prop where
  filled : step.service.Filled
  audit_eq : step.service.audit = s.audit ++ traffic.map Traffic.entry
  inbound_eq : step.service.tally.inbound =
    s.tally.inbound + Volume.of (traffic.filterMap Traffic.read?)
  succeeded_eq : step.service.tally.volume .succeeded =
    s.tally.volume .succeeded + Volume.of (traffic.filterMap Traffic.wrote?)
  failed_eq : step.service.tally.count .writesFailed =
    s.tally.count .writesFailed + UInt64.ofNat (traffic.countP (Traffic.isFailed .writing))

namespace Accounts

variable {step : ServiceStep η} {next : Service η → ServiceStep η} {front back : List Traffic}

theorem andThen (h : s.Accounts front step)
    (hnext : step.service.Accounts back (next step.service)) :
    s.Accounts (front ++ back) (step.andThen next) where
  filled := hnext.filled
  audit_eq := by
    rw [List.map_append, ← List.append_assoc, ← h.audit_eq]
    exact hnext.audit_eq
  inbound_eq := by
    rw [List.filterMap_append, Volume.of_append, ← add_assoc, ← h.inbound_eq]
    exact hnext.inbound_eq
  succeeded_eq := by
    rw [List.filterMap_append, Volume.of_append, ← add_assoc, ← h.succeeded_eq]
    exact hnext.succeeded_eq
  failed_eq := by
    rw [List.countP_append, UInt64.ofNat_add, ← add_assoc, ← h.failed_eq]
    exact hnext.failed_eq

/-- A move without answers of the port. -/
theorem quiet (hfilled : t.Filled) (haudit : t.audit = s.audit)
    (hinbound : t.tally.inbound = s.tally.inbound)
    (hsucceeded : t.tally.volume .succeeded = s.tally.volume .succeeded)
    (hfailed : t.tally.volume .failed = s.tally.volume .failed) :
    s.Accounts [] (.quiet t) where
  filled := hfilled
  audit_eq := haudit.trans (List.append_nil _).symm
  inbound_eq := hinbound.trans (add_zero _).symm
  succeeded_eq := hsucceeded.trans (add_zero _).symm
  failed_eq := (congrArg Prod.fst hfailed).trans (add_zero _).symm

theorem refl (h : s.Filled) : s.Accounts [] (.quiet s) := quiet h rfl rfl rfl rfl

theorem write (h : s.Filled) (data : Bytes) : s.Accounts [] (.quiet (s.write data)) := by
  refine quiet (h.write data) (s.audit_write data) (s.sameInbound_write data).inbound_eq ?_ ?_
  · exact s.volume_write_of_writer data (.inr (.inl rfl))
  · exact s.volume_write_of_writer data (.inr (.inr rfl))

theorem start (h : s.Filled) : s.Accounts [] (.quiet s.start.2) := by
  have hsame : s.start.2.tally = s.tally := by
    rcases s.start_cases with heq | ⟨_, _, heq⟩ <;> rw [heq]
  refine quiet h.start s.audit_start ?_ ?_ ?_ <;> rw [hsame]

/-- Taking a message from the queue is counted as that only. -/
theorem takeNext (h : s.Filled) : s.Accounts [] (.quiet s.takeNext) := by
  have hvolume {f : Flow} (hother : f ≠ .dequeued) :
      s.takeNext.tally.volume f = s.tally.volume f := by
    unfold Service.takeNext
    split
    · split <;> rfl
    · split
      · rfl
      · exact s.tally.volume_addMessage_of_ne hother _
    · rfl
  exact quiet h.takeNext s.audit_takeNext s.sameInbound_takeNext.inbound_eq (hvolume (by simp))
    (hvolume (by simp))

/-- The answer of the port to a message goes on the trail as the one that is counted. -/
theorem completeWrite (h : s.Filled) (script : WriteScript) :
    s.Accounts (s.traffic (.completeWrite script)) (s.completeWrite script) := by
  have hfilled := h.completeWrite script
  cases hwriter : s.writer with
  | off | waiting | done =>
      rw [traffic, inFlight, Service.completeWrite, hwriter]
      exact .refl h
  | sending message =>
      have hinFlight : s.inFlight = [message] := by rw [inFlight, hwriter]
      have hmessage : message.IsFilled := h message (by rw [hinFlight]; exact List.mem_cons_self)
      obtain ⟨hentries, hanswer⟩ := s.link.write_traffic message.content script
      let noted := s.tally.note (s.link.write message.content script).events
      have hnoted (f : Flow) : noted.volume f = s.tally.volume f := Tally.volume_note ..
      have hinbound (f : Flow) : (noted.addMessage f.messages f.bytes message.length).inbound =
          s.tally.inbound := (noted.inbound_addMessage f _).trans (s.tally.inbound_note _)
      have hcounted (f g : Flow) : (noted.addMessage f.messages f.bytes message.length).volume g =
          s.tally.volume g + if g = f then Volume.of [message.content] else 0 := by
        rw [noted.volume_addMessage_of_filled f hmessage, hnoted]
      rw [completeWrite_of_sending hwriter, absorb_eq] at hfilled ⊢
      rw [traffic, hinFlight, List.map_singleton]
      rcases hanswer with ⟨htraffic, hvalue⟩ | ⟨e, htraffic, hvalue⟩
      · rw [htraffic] at hentries ⊢
        rw [hvalue] at hfilled ⊢
        exact
          { filled := hfilled
            audit_eq := congrArg (s.audit ++ ·) hentries
            inbound_eq := (hinbound .succeeded).trans (add_zero _).symm
            succeeded_eq := hcounted .succeeded .succeeded
            failed_eq := congrArg Prod.fst (hcounted .succeeded .failed) }
      · rw [htraffic] at hentries ⊢
        rw [hvalue] at hfilled ⊢
        exact
          { filled := hfilled
            audit_eq := congrArg (s.audit ++ ·) hentries
            inbound_eq := (hinbound .failed).trans (add_zero _).symm
            succeeded_eq := hcounted .failed .succeeded
            failed_eq := congrArg Prod.fst (hcounted .failed .failed) }

/-- A move of the reader leaves messages and their counts as they are. -/
theorem of_reader (h : s.Filled) (hsame : SameOutbound s step.service)
    (hwrote : front.filterMap Traffic.wrote? = [])
    (hlost : front.countP (Traffic.isFailed .writing) = 0)
    (haudit : step.service.audit = s.audit ++ front.map Traffic.entry)
    (hinbound : step.service.tally.inbound =
      s.tally.inbound + Volume.of (front.filterMap Traffic.read?)) : s.Accounts front step where
  filled := h.congr hsame
  audit_eq := haudit
  inbound_eq := hinbound
  succeeded_eq := by rw [hsame.volume_eq, hwrote, Volume.of_nil, add_zero]
  failed_eq := by
    rw [hlost]
    exact (congrArg Prod.fst (hsame.volume_eq .failed)).trans (add_zero _).symm

theorem beginTurn (h : s.Filled) : s.Accounts [] s.beginTurn := by
  have hkept : s.beginTurn.service.audit = s.audit ∧
      s.beginTurn.service.tally.inbound = s.tally.inbound := by
    unfold Service.beginTurn
    split
    · split
      · rw [leaveReader, absorb_eq, Connection.entries_disconnect]
        exact ⟨List.append_nil _, s.tally.inbound_note _⟩
      · split <;> exact ⟨rfl, rfl⟩
    · exact ⟨rfl, rfl⟩
  apply of_reader h s.sameOutbound_beginTurn rfl rfl
  · exact hkept.1.trans (List.append_nil _).symm
  · exact hkept.2.trans (add_zero _).symm

theorem completeOpen (h : s.Filled) (opener : Opener) :
    s.Accounts (s.traffic (.completeOpen opener)) (s.completeOpen opener) := by
  cases hreader : s.reader with
  | off | running | done =>
      rw [Service.completeOpen, traffic, hreader]
      exact .refl h
  | opening =>
      have htraffic : s.traffic (.completeOpen opener) = s.link.openTraffic opener :=
        if_pos hreader
      obtain ⟨hread, hwrote, hlost⟩ := s.link.openTraffic_other opener
      have hkept : (s.completeOpen opener).service.audit =
          s.audit ++ (s.link.complete opener).events.filterMap LinkEvent.entry? ∧
            (s.completeOpen opener).service.tally =
              s.tally.note (s.link.complete opener).events := by
        rw [Service.completeOpen, hreader]
        simp only [absorb_eq]
        exact ⟨rfl, rfl⟩
      rw [htraffic]
      apply of_reader h (s.sameOutbound_completeOpen opener) hwrote hlost
      · rw [hkept.1, s.link.complete_traffic]
      · rw [hkept.2, Tally.inbound_note, hread, Volume.of_nil, add_zero]

/-- What a read gives goes on the trail before it is counted. -/
theorem receive (h : s.Filled) (script : ReadScript) :
    s.Accounts (s.traffic (.receive script)) (s.receive script) := by
  cases hreader : s.reader with
  | off | opening | done =>
      rw [Service.receive, traffic, hreader]
      exact .refl h
  | running =>
      let answer := s.link.read readSize script
      have htraffic : s.traffic (.receive script) = s.link.readTraffic readSize script :=
        if_pos hreader
      have hstep : s.receive script = (s.absorb answer).andThen (·.takeIn answer.value) := by
        rw [Service.receive, hreader]
      obtain ⟨hwrote, hlost⟩ := s.link.readTraffic_other readSize script
      obtain ⟨hentries, hread⟩ := s.link.read_traffic readSize script
      rw [htraffic]
      apply of_reader h (s.sameOutbound_receive script) hwrote hlost
      · rw [hstep, ← hentries]
        refine (audit_takeIn _ answer.value).trans ?_
        rw [absorb_eq]
      · rw [hstep, hread]
        refine (inbound_takeIn _ answer.value).trans ?_
        rw [absorb_eq, Tally.inbound_note]

end Accounts

/-- Every action accounts for its traffic, and so does every run. -/
theorem closed_accounts : Closed (traffic (η := η))
    fun s traffic step => s.Filled → s.Accounts traffic step where
  quiet := fun _ h => .refl h
  andThen := fun hfirst hnext h => (hfirst h).andThen (hnext (hfirst h).filled)
  ending := fun _ h => .quiet h rfl rfl rfl rfl
  dropQueue := fun s h => by
    refine .quiet (h.mono fun message hmem => ?_) rfl rfl rfl rfl
    exact List.mem_append_left _ (by simpa [dropQueue, inFlight] using hmem)
  move := by
    intro s action hmove h
    cases action with
    | write data => exact .write h data
    | setHandler handler => exact .quiet h rfl rfl rfl rfl
    | start => exact .start h
    | stop last => cases hmove
    | takeNext => exact .takeNext h
    | completeWrite script => exact .completeWrite h script
    | beginTurn => exact .beginTurn h
    | completeOpen opener => exact .completeOpen h opener
    | receive script => exact .receive h script

/-! ## Failures that are told -/

/-- The details on the audit trail for such an action. -/
def records (s : Service η) (action : AuditAction) : List String := action.details s.audit

theorem records_eq_of_audit (h : t.audit = s.audit) (action : AuditAction) :
    t.records action = s.records action := by rw [records, h, records]

/-- The handler is told of the failures that are put on the audit trail, and of the overflows of
the assembler that are counted. -/
def Discloses (s : Service η) (step : ServiceStep η) : Prop :=
  UInt64.ofNat (step.service.records .error).length + step.service.tally.count .assemblerOverflows =
    UInt64.ofNat (s.records .error).length + s.tally.count .assemblerOverflows +
      UInt64.ofNat (step.notices.countP (·.2.isFailure))

namespace Discloses

variable {step : ServiceStep η} {next : Service η → ServiceStep η}

theorem andThen (h : s.Discloses step) (hnext : step.service.Discloses (next step.service)) :
    s.Discloses (step.andThen next) := by
  unfold Discloses at h hnext ⊢
  rw [ServiceStep.andThen, List.countP_append, UInt64.ofNat_add, ← add_assoc, ← h]
  exact hnext

theorem quiet (haudit : t.audit = s.audit) (hsame : SameInbound s t) : s.Discloses (.quiet t) := by
  unfold Discloses
  rw [ServiceStep.quiet, records_eq_of_audit haudit, hsame.count_eq .assemblerOverflows rfl]
  exact (add_zero _).symm

theorem refl (s : Service η) : s.Discloses (.quiet s) := quiet rfl ⟨rfl, fun _ _ => rfl⟩

/-- Of what happens on the link the handler is told what is recorded as a failure. -/
theorem absorb {α : Type} (s : Service η) (step : LinkStep α) : s.Discloses (s.absorb step) := by
  unfold Discloses
  have htold : (step.events.filterMap LinkEvent.failure?).length =
      ((step.events.filterMap LinkEvent.entry?).filter (·.action = .error)).length := by
    rw [← List.countP_eq_length_filter, List.countP_filterMap, List.length_filterMap_eq_countP]
    refine List.countP_congr fun event _ => ?_
    cases event <;> simp [LinkEvent.failure?, LinkEvent.entry?]
  have hfailures : ((step.events.filterMap LinkEvent.failure?).map fun e =>
      (s.handler, Notice.failure e)).countP (·.2.isFailure) =
        (step.events.filterMap LinkEvent.failure?).length := by
    rw [List.countP_map]
    exact List.countP_eq_length.mpr fun _ _ => rfl
  rw [absorb_eq, hfailures, htold]
  rw [Tally.count_note (by decide) (by decide), records, records, AuditAction.details,
    AuditAction.details, List.filter_append, List.length_map, List.length_map, List.length_append,
    UInt64.ofNat_add]
  exact add_right_comm ..

/-- An overflow is counted and told, and not recorded. -/
theorem takeIn (s : Service η) (chunk : Bytes) : s.Discloses (s.takeIn chunk) := by
  unfold Discloses
  rw [records_eq_of_audit (s.audit_takeIn chunk)]
  unfold Service.takeIn
  split
  · exact (add_zero _).symm
  · cases s.assembler.push chunk with
    | error e =>
        simp [count, countMessage, Tally.addMessage, Tally.increment, Tally.count_add,
          Notice.isFailure, add_assoc]
    | ok full =>
        have hframes : (full.drain.1.map fun wire => (s.handler, Notice.frame wire)).countP
            (·.2.isFailure) = 0 := by
          rw [List.countP_map]
          exact List.countP_eq_zero.mpr fun _ _ => Bool.false_ne_true
        simp [countMessage, Tally.addMessage, Tally.increment, Tally.count_add, hframes]

theorem completeWrite (s : Service η) (script : WriteScript) :
    s.Discloses (s.completeWrite script) := by
  cases hwriter : s.writer with
  | off | waiting | done =>
      rw [Service.completeWrite, hwriter]
      exact .refl s
  | sending message =>
      rw [completeWrite_of_sending hwriter]
      refine (absorb s _).andThen (quiet rfl ⟨rfl, fun _ hc => ?_⟩)
      exact Tally.count_addMessage_of_isInbound _ _ _ hc

theorem beginTurn (s : Service η) : s.Discloses s.beginTurn := by
  unfold Service.beginTurn
  split
  · split
    · refine (absorb s _).andThen ?_
      exact (add_zero _).symm
    · split <;> exact quiet rfl ⟨rfl, fun _ _ => rfl⟩
  · exact .refl s

theorem completeOpen (s : Service η) (opener : Opener) : s.Discloses (s.completeOpen opener) := by
  unfold Service.completeOpen
  split
  · exact (absorb s _).andThen (quiet rfl ⟨rfl, fun _ _ => rfl⟩)
  · exact .refl s

theorem receive (s : Service η) (script : ReadScript) : s.Discloses (s.receive script) := by
  unfold Service.receive
  split
  · exact (absorb s _).andThen (takeIn _ _)
  · exact .refl s

end Discloses

theorem closed_discloses : Closed (traffic (η := η)) fun s _ step => s.Discloses step where
  quiet := .refl
  andThen := .andThen
  ending := fun _ => .quiet rfl ⟨rfl, fun _ _ => rfl⟩
  dropQueue := fun _ => .quiet rfl ⟨rfl, fun _ _ => rfl⟩
  move := by
    intro s action hmove
    cases action with
    | write data => exact .quiet (s.audit_write data) (s.sameInbound_write data)
    | setHandler handler => exact .quiet rfl ⟨rfl, fun _ _ => rfl⟩
    | start => exact .quiet s.audit_start s.sameInbound_start
    | stop last => cases hmove
    | takeNext => exact .quiet s.audit_takeNext s.sameInbound_takeNext
    | completeWrite script => exact .completeWrite s script
    | beginTurn => exact .beginTurn s
    | completeOpen opener => exact .completeOpen s opener
    | receive script => exact .receive s script

end Service

/-! ## Agreement -/

namespace Traffic

/-- The details of the entries of traffic, by their actions. -/
theorem details_entry (traffic : List Traffic) :
    AuditAction.read.details (traffic.map entry) = (traffic.filterMap read?).map Bytes.toHex ∧
      AuditAction.write.details (traffic.map entry) =
        (traffic.filterMap wrote?).map Bytes.toHex ∧
      AuditAction.error.details (traffic.map entry) =
        (traffic.filterMap failure?).map LinkError.message := by
  induction traffic with
  | nil => exact ⟨rfl, rfl, rfl⟩
  | cons first rest ih =>
      obtain ⟨hread, hwrote, hfailed⟩ := ih
      cases first with
      | read data => exact ⟨congrArg (_ :: ·) hread, hwrote, hfailed⟩
      | wrote data => exact ⟨hread, congrArg (_ :: ·) hwrote, hfailed⟩
      | failed attempt e => exact ⟨hread, hwrote, congrArg (_ :: ·) hfailed⟩

/-- Each failure is that of one attempt. -/
theorem length_failures (traffic : List Traffic) :
    (traffic.filterMap failure?).length =
      traffic.countP (isFailed .writing) + traffic.countP (isFailed .opening) +
        traffic.countP (isFailed .reading) := by
  induction traffic with
  | nil => rfl
  | cons first rest ih =>
      cases first with
      | read data | wrote data => simpa [List.filterMap_cons, failure?, isFailed] using ih
      | failed attempt e =>
          cases attempt <;> simp [failure?, isFailed, ih] <;> omega

end Traffic

/-- The text of bytes in pieces is the text of the bytes. -/
theorem Bytes.join_toHex (pieces : List Bytes) :
    String.join (pieces.map toHex) = toHex pieces.flatten := by
  induction pieces with
  | nil => rfl
  | cons piece rest ih =>
      rw [List.map_cons, String.join_cons, ih, List.flatten_cons, toHex, toHex, toHex, hexDigits,
        hexDigits, hexDigits, List.flatMap_append, String.ofList_append]

namespace ServiceStep

variable {η : Type} {step : ServiceStep η} {traffic : List Traffic}

/-- The audit trail, the counters and the handler agree on the traffic so far. What is counted
goes modulo `2 ^ 64`; an overflow of the assembler is told, and no traffic. -/
structure Agrees (step : ServiceStep η) (traffic : List Traffic) : Prop where
  audit_eq : step.service.audit = traffic.map Traffic.entry
  read_details : step.service.records .read = (traffic.filterMap Traffic.read?).map Bytes.toHex
  read_text : String.join (step.service.records .read) =
    Bytes.toHex (traffic.filterMap Traffic.read?).flatten
  reads_eq : step.service.tally.count .reads =
    UInt64.ofNat (step.service.records .read).length
  readBytes_eq : step.service.tally.count .readBytes =
    UInt64.ofNat (traffic.filterMap Traffic.read?).flatten.length
  write_details : step.service.records .write = (traffic.filterMap Traffic.wrote?).map Bytes.toHex
  write_text : String.join (step.service.records .write) =
    Bytes.toHex (traffic.filterMap Traffic.wrote?).flatten
  writes_eq : step.service.tally.count .writesSucceeded =
    UInt64.ofNat (step.service.records .write).length
  writeBytes_eq : step.service.tally.count .writesSucceededBytes =
    UInt64.ofNat (traffic.filterMap Traffic.wrote?).flatten.length
  error_details : step.service.records .error =
    (traffic.filterMap Traffic.failure?).map LinkError.message
  errors_eq : UInt64.ofNat (step.service.records .error).length =
    step.service.tally.count .writesFailed +
      UInt64.ofNat (traffic.countP (Traffic.isFailed .opening)) +
      UInt64.ofNat (traffic.countP (Traffic.isFailed .reading))
  told_eq : UInt64.ofNat (step.notices.countP (·.2.isFailure)) =
    UInt64.ofNat (step.service.records .error).length +
      step.service.tally.count .assemblerOverflows

/-- What is accounted for from the beginning of a service is agreed on. -/
theorem agrees_of_new {config : Config} {handler : η}
    (haccounts : (Service.new config handler).Accounts traffic step)
    (hdiscloses : (Service.new config handler).Discloses step) : step.Agrees traffic := by
  obtain ⟨_, haudit, hinbound, hsucceeded, hfailed⟩ := haccounts
  rw [show (Service.new config handler).audit = [] from rfl, List.nil_append] at haudit
  rw [show (Service.new config handler).tally = .zero from rfl] at hinbound hsucceeded hfailed
  rw [show Tally.zero.inbound = 0 from rfl, zero_add] at hinbound
  rw [Tally.volume_zero, zero_add] at hsucceeded
  rw [Tally.count_zero, zero_add] at hfailed
  obtain ⟨hread, hwrote, herror⟩ := Traffic.details_entry traffic
  rw [← haudit] at hread hwrote herror
  have hlength {β : Type} {details : List String} {kind : List β} {text : β → String}
      (h : details = kind.map text) : details.length = kind.length := by
    rw [h, List.length_map]
  constructor
  · exact haudit
  · exact hread
  · rw [Service.records, hread, Bytes.join_toHex]
  · rw [Service.records, hlength hread]
    exact congrArg Prod.fst hinbound
  · exact congrArg Prod.snd hinbound
  · exact hwrote
  · rw [Service.records, hwrote, Bytes.join_toHex]
  · rw [Service.records, hlength hwrote]
    exact congrArg Prod.fst hsucceeded
  · exact congrArg Prod.snd hsucceeded
  · exact herror
  · rw [hfailed, Service.records, hlength herror, Traffic.length_failures, UInt64.ofNat_add,
      UInt64.ofNat_add]
  · unfold Service.Discloses at hdiscloses
    rw [hdiscloses]
    exact (zero_add _).symm

end ServiceStep

namespace Service

variable {η : Type}

/-- The audit trail and the counters agree with each other and with what the port answered, in
every state of every run, be it in the midst of a stop. -/
theorem audit_agrees (config : Config) (handler : η) (actions : List (ServiceAction η)) :
    let fresh := Service.new config handler
    let before := fresh.run actions
    let ending := { before.service with terminating := true }
    let answered := fresh.log (unwound traffic) actions
    before.Agrees answered ∧
    ∀ more, (before.andThen fun _ => ending.run more).Agrees
      (answered ++ ending.log (unwound traffic) more) := by
  intro fresh before ending answered
  have hfilled : fresh.Filled := fun message hmem => absurd hmem List.not_mem_nil
  have haccounts : fresh.Accounts answered before := closed_accounts.run fresh actions hfilled
  have hdiscloses : fresh.Discloses before := closed_discloses.run fresh actions
  refine ⟨ServiceStep.agrees_of_new haccounts hdiscloses, fun more => ?_⟩
  have hending : ending.Filled := haccounts.filled
  refine ServiceStep.agrees_of_new (haccounts.andThen ?_) (hdiscloses.andThen ?_)
  · have hmore : before.service.Accounts ([] ++ ending.log (unwound traffic) more)
        ((ServiceStep.quiet ending).andThen (run · more)) :=
      (closed_accounts.ending _ haccounts.filled).andThen
        (closed_accounts.run ending more hending)
    exact hmore
  · have hmore : before.service.Discloses ((ServiceStep.quiet ending).andThen (run · more)) :=
      (closed_discloses.ending _).andThen (closed_discloses.run ending more)
    exact hmore

/-- A port that opens on the second attempt, gives bytes, takes a message, and breaks. A message
behind that finds no port. -/
example :
    (Service.new Config.default ()).log (unwound traffic)
      [.start, .beginTurn, .completeOpen (.scripted ⟨some (.serial "busy"), none, none⟩),
        .beginTurn, .beginTurn, .beginTurn, .completeOpen (.scripted .success),
        .receive ⟨none, .ok [0x02]⟩, .write [0x10], .takeNext, .completeWrite .success,
        .write [0x11], .receive ⟨none, .error ⟨.brokenPipe, "gone"⟩⟩, .takeNext,
        .completeWrite .success] =
      [.failed .opening (.serial "busy"), .read [0x02], .wrote [0x10],
        .failed .reading (.io ⟨.brokenPipe, "gone"⟩), .failed .writing .notConnected] := by
  decide +kernel

end Service

end CabinetBus
