-- SUMMARY: On the way out no message is lost, doubled, reordered or mixed up, and the counters say so.
import CabinetBus.Proofs.Outbound

/-!
# Conservation of outbound messages

A message that was accepted is at one of four places: it was handed to the link, it is
being sent, it waits in the queue, or the shutdown gave its buffer back. Read in this
order the four places hold the accepted payloads in the order of their acceptance, and
the counters are the volumes of the ways between the places.
-/

namespace CabinetBus

variable {η : Type}

def ServiceAction.isStop : ServiceAction η → Bool
  | .stop _ => true
  | _ => false

namespace Service

/-! ## Records of a run -/

/-- What `note` takes down at each action of a run, from the state before it. -/
def log {β : Type} (note : Service η → ServiceAction η → List β) (s : Service η) :
    List (ServiceAction η) → List β
  | [] => []
  | action :: rest => note s action ++ (s.perform action).service.log note rest

/-- The payloads of the write calls before the first stop. -/
def callsBeforeStop : List (ServiceAction η) → List Bytes
  | [] => []
  | .write data :: rest => data :: callsBeforeStop rest
  | .stop _ :: _ => []
  | _ :: rest => callsBeforeStop rest

/-- The payload of a write call to a service that is not ending. -/
def offered (s : Service η) : ServiceAction η → List Bytes
  | .write data => if s.terminating then [] else [data]
  | _ => []

/-- The payload of a write call that is put on the queue. -/
def accepted (s : Service η) : ServiceAction η → List Bytes
  | .write data => if s.admission data = some .enqueued then [data] else []
  | _ => []

/-- The payload that the link is given to write. -/
def handed (s : Service η) : ServiceAction η → List Bytes
  | .completeWrite _ | .stop _ => s.inFlight.map MessageBuffer.content
  | _ => []

/-- The payloads whose buffers a stop gives back unsent. -/
def released (s : Service η) : ServiceAction η → List Bytes
  | .stop _ => s.queue.map MessageBuffer.content
  | _ => []

/-! ## Places -/

/-- Where the accepted payloads are: handed to the link, being sent, queued, or released. Each
buffer in use holds one that is being sent or queued. -/
structure Places (s : Service η) (accepted handed released : List Bytes) : Prop where
  queue_le : s.queue.length ≤ s.queueCapacity
  inUse_eq : s.pool.inUse = UInt64.ofNat (s.inFlight ++ s.queue).length
  filled : ∀ message ∈ s.inFlight ++ s.queue, message.IsFilled
  accepted_eq : accepted =
    handed ++ (s.inFlight ++ s.queue).map MessageBuffer.content ++ released

namespace Places

variable {s t : Service η} {taken given lost : List Bytes}

theorem congr (h : s.Places taken given lost) (hsame : SameOutbound s t) :
    t.Places taken given lost := by
  obtain ⟨hconfig, _, _, hqueue, hpool, hinFlight, _, _⟩ := hsame
  constructor
  · rw [hqueue, queueCapacity, hconfig]
    exact h.queue_le
  · rw [hpool, hinFlight, hqueue]
    exact h.inUse_eq
  · rw [hinFlight, hqueue]
    exact h.filled
  · rw [hinFlight, hqueue]
    exact h.accepted_eq

theorem write (h : s.Places taken given lost) (hlost : s.terminating = false → lost = [])
    (data : Bytes) : (s.write data).Places (taken ++ s.accepted (.write data)) given lost := by
  rcases s.write_cases data with ⟨hverdict, hwrite⟩ | ⟨hverdict, hwrite⟩ |
    ⟨hverdict, message, hwrite⟩ | ⟨hverdict, message, hcontent, hfilled, hroom, hwrite⟩
  · rw [accepted, hverdict, if_neg (by simp), List.append_nil, hwrite]
    exact h
  · rw [accepted, hverdict, if_neg (by simp), List.append_nil, hwrite]
    exact ⟨h.queue_le, h.inUse_eq, h.filled, h.accepted_eq⟩
  · rw [accepted, hverdict, if_neg (by simp), List.append_nil, hwrite]
    refine ⟨h.queue_le, ?_, h.filled, h.accepted_eq⟩
    change s.pool.acquire.2.inUse - 1 = _
    rw [BufferPool.inUse_acquire, add_sub_cancel_right]
    exact h.inUse_eq
  · have hrunning : s.terminating = false := by
      rw [← Bool.not_eq_true, ← @admission_eq_none_iff _ _ data, hverdict]
      exact Option.some_ne_none _
    rw [accepted, if_pos hverdict, hwrite]
    constructor
    · change (s.queue ++ [message]).length ≤ s.queueCapacity
      rw [List.length_append]
      exact hroom
    · change s.pool.acquire.2.inUse = UInt64.ofNat (s.inFlight ++ (s.queue ++ [message])).length
      have hlength : (s.inFlight ++ s.queue ++ [message]).length =
          (s.inFlight ++ s.queue).length + 1 := List.length_append
      rw [BufferPool.inUse_acquire, h.inUse_eq, ← List.append_assoc, hlength, UInt64.ofNat_add]
      rfl
    · change ∀ queued ∈ s.inFlight ++ (s.queue ++ [message]), queued.IsFilled
      intro queued hmem
      rw [← List.append_assoc, List.mem_append, List.mem_singleton] at hmem
      rcases hmem with hmem | rfl
      · exact h.filled queued hmem
      · exact hfilled
    · change _ = given ++ (s.inFlight ++ (s.queue ++ [message])).map MessageBuffer.content ++ lost
      rw [h.accepted_eq, hlost hrunning]
      simp [hcontent]

theorem takeNext (h : s.Places taken given lost) (hrunning : s.terminating = false) :
    s.takeNext.Places taken given lost := by
  rcases takeNext_cases hrunning with heq | ⟨message, rest, hwriter, hqueue, heq⟩
  · rw [heq]
    exact h
  · obtain ⟨hle, hinUse, hfilled, htaken⟩ := h
    rw [inFlight_of_waiting hwriter, hqueue] at hinUse hfilled htaken
    rw [hqueue] at hle
    rw [heq]
    exact ⟨Nat.le_of_succ_le hle, hinUse, hfilled, htaken⟩

theorem completeWrite (h : s.Places taken given lost) (script : WriteScript) :
    (s.completeWrite script).service.Places taken
      (given ++ s.inFlight.map MessageBuffer.content) lost := by
  rcases s.completeWrite_cases script with ⟨hidle, heq⟩ |
    ⟨message, outcome, after, hsending, _, hsame, heq⟩
  · rw [heq, hidle, List.map_nil, List.append_nil]
    exact h
  · obtain ⟨hle, hinUse, hfilled, htaken⟩ := h.congr hsame
    rw [hsame.inFlight_eq, hsending] at hinUse hfilled htaken
    rw [heq, hsending]
    constructor
    · exact hle
    · change after.pool.inUse - 1 = UInt64.ofNat after.queue.length
      rw [hinUse, List.singleton_append, List.length_cons, UInt64.ofNat_add]
      exact add_sub_cancel_right _ _
    · intro queued hmem
      exact hfilled queued (List.mem_append_right _ hmem)
    · change taken = given ++ [message].map _ ++ after.queue.map _ ++ lost
      rw [htaken, List.map_append, ← List.append_assoc given]

theorem dropQueue (h : s.Places taken given lost) (hlost : s.queue = [] ∨ lost = []) :
    s.dropQueue.Places taken given (lost ++ s.queue.map MessageBuffer.content) := by
  obtain ⟨_, hinUse, hfilled, htaken⟩ := h
  constructor
  · exact Nat.zero_le _
  · change (s.queue.foldl BufferPool.release s.pool).inUse = UInt64.ofNat (s.inFlight ++ []).length
    rw [BufferPool.inUse_foldl_release, hinUse, List.length_append, UInt64.ofNat_add,
      add_sub_cancel_right, List.append_nil]
  · change ∀ message ∈ s.inFlight ++ [], message.IsFilled
    rw [List.append_nil]
    exact fun message hmem => hfilled message (List.mem_append_left _ hmem)
  · change taken = given ++ (s.inFlight ++ []).map MessageBuffer.content ++ _
    rcases hlost with hempty | rfl
    · simpa [hempty] using htaken
    · simpa using htaken

end Places

/-! ## Counts -/

/-- The counters are the volumes of what was offered, accepted and handed to the link. -/
structure Counts (s : Service η) (offered accepted handed : List Bytes) : Prop where
  offered_eq : Volume.of offered =
    s.tally.volume .enqueued + s.tally.volume .omitted + s.tally.volume .queueFull
  enqueued_eq : s.tally.volume .enqueued = Volume.of accepted
  dequeued_eq : s.tally.volume .dequeued =
    Volume.of (handed ++ s.inFlight.map MessageBuffer.content)
  written_eq : s.tally.volume .succeeded + s.tally.volume .failed = Volume.of handed

namespace Counts

variable {s t : Service η} {calls taken given : List Bytes}

theorem congr (h : s.Counts calls taken given) (hsame : SameOutbound s t) :
    t.Counts calls taken given := by
  obtain ⟨_, _, _, _, _, hinFlight, _, hvolume⟩ := hsame
  constructor
  · simp only [hvolume]
    exact h.offered_eq
  · rw [hvolume]
    exact h.enqueued_eq
  · rw [hvolume, hinFlight]
    exact h.dequeued_eq
  · simp only [hvolume]
    exact h.written_eq

/-- A write call adds what it offers to the three counters of its verdicts. -/
theorem offered_write (h : s.Counts calls taken given) (data : Bytes) :
    Volume.of (calls ++ s.offered (.write data)) =
      (s.write data).tally.volume .enqueued + (s.write data).tally.volume .omitted +
        (s.write data).tally.volume .queueFull := by
  rw [Volume.of_append, h.offered_eq]
  simp only [volume_write, offered]
  cases hverdict : s.admission data with
  | none =>
      rw [if_pos (admission_eq_none_iff.mp hverdict)]
      simp
  | some f =>
      have hrunning : ¬ s.terminating = true := by
        rw [← @admission_eq_none_iff _ _ data, hverdict]
        exact Option.some_ne_none f
      rw [if_neg hrunning]
      rcases admission_eq_some hverdict with rfl | rfl | rfl
      all_goals
        simp only [if_true, Option.some.injEq, reduceCtorEq, if_false, add_zero]
        abel

theorem write (h : s.Counts calls taken given) (data : Bytes) :
    (s.write data).Counts (calls ++ s.offered (.write data)) (taken ++ s.accepted (.write data))
      given where
  offered_eq := h.offered_write data
  enqueued_eq := by
    rw [volume_write, h.enqueued_eq, Volume.of_append, accepted]
    split <;> rfl
  dequeued_eq := by
    have hinFlight : (s.write data).inFlight = s.inFlight := by
      rw [inFlight, (s.write_kept data).2.2, inFlight]
    rw [volume_write_of_writer s data (.inl rfl), hinFlight]
    exact h.dequeued_eq
  written_eq := by
    rw [volume_write_of_writer s data (.inr (.inl rfl)),
      volume_write_of_writer s data (.inr (.inr rfl))]
    exact h.written_eq

theorem takeNext (h : s.Counts calls taken given) (hrunning : s.terminating = false)
    (hfilled : ∀ message ∈ s.queue, message.IsFilled) : s.takeNext.Counts calls taken given := by
  rcases takeNext_cases hrunning with heq | ⟨message, rest, hwriter, hqueue, heq⟩
  · rw [heq]
    exact h
  · have hmessage : message.IsFilled := hfilled message (by rw [hqueue]; exact List.mem_cons_self)
    have hvolume (f : Flow) : s.takeNext.tally.volume f =
        s.tally.volume f + if f = .dequeued then Volume.of [message.content] else 0 := by
      rw [heq]
      exact Tally.volume_addMessage_of_filled _ .dequeued hmessage f
    have hinFlight : s.takeNext.inFlight = [message] := by rw [heq]; rfl
    constructor
    · simpa [hvolume] using h.offered_eq
    · simpa [hvolume] using h.enqueued_eq
    · rw [hvolume, if_pos rfl, h.dequeued_eq, inFlight_of_waiting hwriter, hinFlight,
        List.map_nil, List.append_nil, Volume.of_append]
      rfl
    · simpa [hvolume] using h.written_eq

theorem completeWrite (h : s.Counts calls taken given) (script : WriteScript)
    (hfilled : ∀ message ∈ s.inFlight, message.IsFilled) :
    (s.completeWrite script).service.Counts calls taken
      (given ++ s.inFlight.map MessageBuffer.content) := by
  rcases s.completeWrite_cases script with ⟨hidle, heq⟩ |
    ⟨message, outcome, after, hsending, houtcome, hsame, heq⟩
  · rw [heq, hidle, List.map_nil, List.append_nil]
    exact h
  · have hmessage : message.IsFilled :=
      hfilled message (by rw [hsending]; exact List.mem_singleton_self _)
    have hvolume (f : Flow) : (s.completeWrite script).service.tally.volume f =
        s.tally.volume f + if f = outcome then Volume.of [message.content] else 0 := by
      rw [heq, ← hsame.volume_eq]
      exact Tally.volume_addMessage_of_filled _ outcome hmessage f
    have hinFlight : (s.completeWrite script).service.inFlight = [] := by rw [heq]; rfl
    rw [hsending, List.map_singleton]
    rcases houtcome with rfl | rfl
    all_goals
      constructor
      · simpa [hvolume] using h.offered_eq
      · simpa [hvolume] using h.enqueued_eq
      · simpa [hvolume, hinFlight, hsending] using h.dequeued_eq
      · simp only [hvolume, if_true, reduceCtorEq, if_false, add_zero, Volume.of_append,
          ← h.written_eq]
        abel

end Counts

/-! ## Whole runs -/

/-- Between two actions: places and counters agree with the record; a writer that was not
started is off; a service that is ending has nothing left; and one that is not ending has
released nothing. -/
structure Balanced (s : Service η) (offered accepted handed released : List Bytes) : Prop where
  places : s.Places accepted handed released
  counts : s.Counts offered accepted handed
  writer_off : s.started = false → s.writer = .off
  of_terminating : s.terminating = true → s.inFlight = [] ∧ s.queue = []
  released_eq_nil : s.terminating = false → released = []

namespace Balanced

variable {s t : Service η} {calls taken given lost : List Bytes}

/-- What leaves the outbound side alone keeps the balance. -/
theorem congr (h : s.Balanced calls taken given lost) (hsame : SameOutbound s t) :
    t.Balanced calls taken given lost where
  places := h.places.congr hsame
  counts := h.counts.congr hsame
  writer_off := by
    rw [hsame.started_eq]
    exact hsame.writer_off ∘ h.writer_off
  of_terminating := by
    rw [hsame.terminating_eq, hsame.inFlight_eq, hsame.queue_eq]
    exact h.of_terminating
  released_eq_nil := by
    rw [hsame.terminating_eq]
    exact h.released_eq_nil

theorem new (config : Config) (handler : η) :
    (Service.new config handler).Balanced [] [] [] [] where
  places := ⟨Nat.zero_le _, rfl, fun _ hmem => (List.not_mem_nil hmem).elim, rfl⟩
  counts := by
    constructor <;> simp only [Service.new, Tally.volume_zero] <;> rfl
  writer_off := fun _ => rfl
  of_terminating := fun h => by cases h
  released_eq_nil := fun _ => rfl

theorem write (h : s.Balanced calls taken given lost) (data : Bytes) :
    (s.write data).Balanced (calls ++ s.offered (.write data)) (taken ++ s.accepted (.write data))
      given lost := by
  obtain ⟨hstarted, hterminating, hwriter⟩ := s.write_kept data
  refine ⟨h.places.write h.released_eq_nil data, h.counts.write data, ?_, fun hending => ?_, ?_⟩
  · rw [hstarted, hwriter]
    exact h.writer_off
  · rw [hterminating] at hending
    rw [Service.write, if_pos hending]
    exact h.of_terminating hending
  · rw [hterminating]
    exact h.released_eq_nil

theorem start (h : s.Balanced calls taken given lost) :
    s.start.2.Balanced calls taken given lost := by
  rcases s.start_cases with heq | ⟨hrunning, hstarted, heq⟩
  · rw [heq]
    exact h
  · -- A writer that was off sends nothing, and nor does one that waits.
    have hidle := inFlight_of_off (h.writer_off hstarted)
    obtain ⟨⟨hle, hinUse, hfilled, htaken⟩, ⟨hoffered, henqueued, hdequeued, hwritten⟩, _, _,
      hreleased⟩ := h
    rw [hidle] at hinUse hfilled htaken hdequeued
    rw [heq]
    refine ⟨⟨hle, hinUse, hfilled, htaken⟩, ⟨hoffered, henqueued, hdequeued, hwritten⟩,
      fun hoff => ?_, fun hending => ?_, hreleased⟩
    · cases hoff
    · cases hrunning.symm.trans hending

theorem takeNext (h : s.Balanced calls taken given lost) :
    s.takeNext.Balanced calls taken given lost := by
  cases hending : s.terminating with
  | true => exact h.congr (sameOutbound_takeNext_of_empty hending (h.of_terminating hending).2)
  | false =>
      have hplaces := h.places.takeNext hending
      have hcounts := h.counts.takeNext hending
        fun message hmem => h.places.filled message (List.mem_append_right _ hmem)
      rcases takeNext_cases hending with heq | ⟨message, rest, hwriter, _, heq⟩
      · rw [heq]
        exact h
      · rw [heq] at hplaces hcounts ⊢
        refine ⟨hplaces, hcounts, fun hstarted => ?_, fun hended => ?_, h.released_eq_nil⟩
        · rw [h.writer_off hstarted] at hwriter
          cases hwriter
        · change s.terminating = true at hended
          rw [hending] at hended
          cases hended

theorem completeWrite (h : s.Balanced calls taken given lost) (script : WriteScript) :
    (s.completeWrite script).service.Balanced calls taken
      (given ++ s.inFlight.map MessageBuffer.content) lost := by
  obtain ⟨hstarted, hterminating, hqueue, hidle, hoff⟩ := s.completeWrite_kept script
  refine ⟨h.places.completeWrite script, h.counts.completeWrite script fun message hmem =>
    h.places.filled message (List.mem_append_left _ hmem), ?_, ?_, ?_⟩
  · rw [hstarted]
    exact hoff ∘ h.writer_off
  · rw [hterminating, hidle, hqueue]
    exact fun hending => ⟨rfl, (h.of_terminating hending).2⟩
  · rw [hterminating]
    exact h.released_eq_nil

theorem stop (h : s.Balanced calls taken given lost) (last : LastAnswers) :
    (s.stop last).service.Balanced calls taken (given ++ s.handed (.stop last))
      (lost ++ s.released (.stop last)) := by
  have hstop := s.sameOutbound_stop last
  obtain ⟨hstarted, hterminating, hqueue, hidle, hoff⟩ :=
    { s with terminating := true }.completeWrite_kept last.write
  have hnone : s.queue = [] ∨ lost = [] := by
    cases hending : s.terminating with
    | true => exact .inl (h.of_terminating hending).2
    | false => exact .inr (h.released_eq_nil hending)
  have hplaces : { s with terminating := true }.Places taken given lost :=
    ⟨h.places.queue_le, h.places.inUse_eq, h.places.filled, h.places.accepted_eq⟩
  have hcounts : { s with terminating := true }.Counts calls taken given :=
    ⟨h.counts.offered_eq, h.counts.enqueued_eq, h.counts.dequeued_eq, h.counts.written_eq⟩
  have hsent := hplaces.completeWrite last.write
  have hcounted := hcounts.completeWrite last.write
    fun message hmem => h.places.filled message (List.mem_append_left _ hmem)
  constructor
  · have hdropped := hsent.dropQueue (by rwa [hqueue])
    rw [hqueue] at hdropped
    exact hdropped.congr hstop
  · refine Counts.congr ?_ hstop
    exact ⟨hcounted.offered_eq, hcounted.enqueued_eq, hcounted.dequeued_eq, hcounted.written_eq⟩
  · rw [hstop.started_eq]
    intro hnever
    exact hstop.writer_off (hoff (h.writer_off (hstarted.symm.trans hnever)))
  · rw [hstop.inFlight_eq, hstop.queue_eq]
    exact fun _ => ⟨hidle, rfl⟩
  · rw [hstop.terminating_eq]
    intro hrunning
    cases hterminating.symm.trans hrunning

/-- Every action keeps the balance, with what it adds to the record. -/
theorem perform (h : s.Balanced calls taken given lost) (action : ServiceAction η) :
    (s.perform action).service.Balanced (calls ++ s.offered action) (taken ++ s.accepted action)
      (given ++ s.handed action) (lost ++ s.released action) := by
  -- An action of the reader, of the handler or of the writer's taking adds nothing to it.
  have hsilent {t : Service η} (hkept : t.Balanced calls taken given lost) :
      t.Balanced (calls ++ []) (taken ++ []) (given ++ []) (lost ++ []) := by
    simpa only [List.append_nil] using hkept
  cases action with
  | write data =>
      change (s.write data).Balanced _ _ (given ++ []) (lost ++ [])
      simp only [List.append_nil]
      exact h.write data
  | stop last =>
      change (s.stop last).service.Balanced (calls ++ []) (taken ++ []) _ _
      simp only [List.append_nil]
      exact h.stop last
  | completeWrite script =>
      change (s.completeWrite script).service.Balanced (calls ++ []) (taken ++ []) _ (lost ++ [])
      simp only [List.append_nil]
      exact h.completeWrite script
  | takeNext => exact hsilent h.takeNext
  | start => exact hsilent h.start
  | setHandler handler => exact hsilent (h.congr (.of_rest fun _ => rfl))
  | beginTurn => exact hsilent (h.congr s.sameOutbound_beginTurn)
  | completeOpen opener => exact hsilent (h.congr (s.sameOutbound_completeOpen opener))
  | receive script => exact hsilent (h.congr (s.sameOutbound_receive script))

/-- A whole run keeps the balance, with the record of the run. -/
theorem run (h : s.Balanced calls taken given lost) (actions : List (ServiceAction η)) :
    (s.run actions).service.Balanced (calls ++ s.log offered actions)
      (taken ++ s.log accepted actions) (given ++ s.log handed actions)
      (lost ++ s.log released actions) := by
  induction actions generalizing s calls taken given lost with
  | nil =>
      simp only [log, List.append_nil]
      exact h
  | cons action rest ih =>
      have hrest := ih (h.perform action)
      simp only [List.append_assoc] at hrest
      exact hrest

end Balanced

/-! ## Calls before a stop -/

/-- A stop ends the service for good, and no other action ends it. -/
theorem terminating_perform (s : Service η) (action : ServiceAction η) :
    (s.perform action).service.terminating = (action.isStop || s.terminating) := by
  cases action with
  | write data => exact (s.write_kept data).2.1
  | stop last =>
      exact (s.sameOutbound_stop last).terminating_eq.trans
        ({ s with terminating := true }.completeWrite_kept last.write).2.1
  | completeWrite script => exact (s.completeWrite_kept script).2.1
  | takeNext =>
      change s.takeNext.terminating = s.terminating
      cases hending : s.terminating with
      | true =>
          rcases takeNext_of_terminating hending with heq | hsame
          · rw [heq, hending]
          · exact hsame.terminating_eq.trans hending
      | false =>
          rcases takeNext_cases hending with heq | ⟨_, _, _, _, heq⟩
          · rw [heq, hending]
          · rw [heq]
            exact hending
  | start =>
      change s.start.2.terminating = s.terminating
      rcases s.start_cases with heq | ⟨_, _, heq⟩ <;> rw [heq]
  | setHandler => rfl
  | beginTurn => exact s.sameOutbound_beginTurn.terminating_eq
  | completeOpen opener => exact (s.sameOutbound_completeOpen opener).terminating_eq
  | receive script => exact (s.sameOutbound_receive script).terminating_eq

/-- Nothing is offered to a service that is ending. -/
theorem log_offered_of_terminating {s : Service η} (h : s.terminating = true)
    (actions : List (ServiceAction η)) : s.log offered actions = [] := by
  induction actions generalizing s with
  | nil => rfl
  | cons action rest ih =>
      have hoffered : s.offered action = [] := by
        cases action with
        | write data => exact if_pos h
        | _ => rfl
      rw [log, hoffered, ih (by rw [terminating_perform, h, Bool.or_true]), List.append_nil]

/-- What is offered in a run is what the write calls before the first stop bring. -/
theorem log_offered {s : Service η} (h : s.terminating = false)
    (actions : List (ServiceAction η)) : s.log offered actions = callsBeforeStop actions := by
  induction actions generalizing s with
  | nil => rfl
  | cons action rest ih =>
      have hending := s.terminating_perform action
      rw [h, Bool.or_false] at hending
      cases action with
      | stop last => exact log_offered_of_terminating hending rest
      | write data =>
          have hoffered : s.offered (.write data) = [data] := if_neg (by simp [h])
          rw [log, hoffered, ih hending, List.singleton_append, callsBeforeStop]
      | _ => exact ih hending

/-! ## Settings -/

theorem config_completeWrite (s : Service η) (script : WriteScript) :
    (s.completeWrite script).service.config = s.config := by
  rcases s.completeWrite_cases script with ⟨_, heq⟩ | ⟨_, _, _, _, _, hsame, heq⟩
  · rw [heq]
    rfl
  · rw [heq]
    exact hsame.config_eq

theorem config_perform (s : Service η) (action : ServiceAction η) :
    (s.perform action).service.config = s.config := by
  cases action with
  | write data =>
      change (s.write data).config = s.config
      obtain ⟨_, _, _, heq⟩ := s.write_eq_update data
      rw [heq]
  | stop last =>
      exact (s.sameOutbound_stop last).config_eq.trans (config_completeWrite _ last.write)
  | completeWrite script => exact s.config_completeWrite script
  | takeNext =>
      change s.takeNext.config = s.config
      obtain ⟨_, _, _, _, _, heq⟩ := s.takeNext_eq_update
      rw [heq]
  | start =>
      change s.start.2.config = s.config
      rcases s.start_cases with heq | ⟨_, _, heq⟩ <;> rw [heq]
  | setHandler => rfl
  | beginTurn => exact s.sameOutbound_beginTurn.config_eq
  | completeOpen opener => exact (s.sameOutbound_completeOpen opener).config_eq
  | receive script => exact (s.sameOutbound_receive script).config_eq

/-- The settings of a service never change. -/
theorem config_run (s : Service η) (actions : List (ServiceAction η)) :
    (s.run actions).service.config = s.config := by
  induction actions generalizing s with
  | nil => rfl
  | cons action rest ih => exact (ih _).trans (s.config_perform action)

/-! ## Whole moves -/

/-- Each message that the writer takes it writes at once: no other action comes between. -/
def MovesWhole : List (ServiceAction η) → Prop
  | .takeNext :: .completeWrite _ :: rest => MovesWhole rest
  | .takeNext :: _ => False
  | _ :: rest => MovesWhole rest
  | [] => True

/-- Only a taking leaves a message that is being sent. -/
theorem inFlight_perform {s : Service η} (hidle : s.inFlight = []) {action : ServiceAction η}
    (haction : action ≠ .takeNext) : (s.perform action).service.inFlight = [] := by
  cases action with
  | write data =>
      have hwriter : (s.write data).writer = s.writer := (s.write_kept data).2.2
      change (s.write data).inFlight = []
      rw [inFlight, hwriter]
      exact hidle
  | stop last =>
      obtain ⟨_, _, _, hsent, _⟩ := { s with terminating := true }.completeWrite_kept last.write
      exact (s.sameOutbound_stop last).inFlight_eq.trans hsent
  | completeWrite script => exact (s.completeWrite_kept script).2.2.2.1
  | takeNext => exact absurd rfl haction
  | start =>
      change s.start.2.inFlight = []
      rcases s.start_cases with heq | ⟨_, _, heq⟩
      · rw [heq]
        exact hidle
      · rw [heq]
        exact inFlight_of_waiting rfl
  | setHandler => exact hidle
  | beginTurn => exact s.sameOutbound_beginTurn.inFlight_eq.trans hidle
  | completeOpen opener => exact (s.sameOutbound_completeOpen opener).inFlight_eq.trans hidle
  | receive script => exact (s.sameOutbound_receive script).inFlight_eq.trans hidle

/-- After whole moves of the writer no message is being sent. -/
theorem MovesWhole.inFlight_run {s : Service η} (hidle : s.inFlight = [])
    {actions : List (ServiceAction η)} (hwhole : MovesWhole actions) :
    (s.run actions).service.inFlight = [] := by
  induction actions using MovesWhole.induct generalizing s with
  | case1 script rest ih =>
      exact ih (s.takeNext.completeWrite_kept script).2.2.2.1 hwhole
  | case2 rest hcut =>
      rw [MovesWhole.eq_2 rest hcut] at hwhole
      cases hwhole
  | case3 action rest hwritten htaken ih =>
      rw [MovesWhole.eq_3 action rest hwritten htaken] at hwhole
      exact ih (inFlight_perform hidle htaken) hwhole
  | case4 => exact hidle

end Service

end CabinetBus
