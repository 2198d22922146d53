-- SUMMARY: The pace of a poller, and what becomes of its requests among everything else.
import Mathlib.Data.List.Pairwise
import Mathlib.Data.List.TakeWhile
import CabinetBus.Poll.Poller
import CabinetBus.Proofs.Moves
import CabinetBus.Proofs.Requesting

/-!
# Polling

A poller shares its service with whoever else writes to it, and with the moves of its activities.
None of that bears on the pace: whether a tick sends depends on the instants of the ticks alone. A
request is written like any other message, so it waits at the end of the queue or is turned away,
and it is counted by nobody but the poller.
-/

namespace CabinetBus

variable {η : Type}

/-! ## Ticks -/

namespace Poller

/-- The frame of a static status request. -/
def request : Bytes := [0x02, 0x10, 0xF3, 0xC1, 0x03]

theorem wireFrame_request : Frame.wireFrame Request.staticStatus.content = request := by
  decide +kernel

/-- A poller with room for its requests, which it sends at some interval. -/
structure Paces (p : Poller) (interval : Nat) : Prop where
  requestEvery_eq : p.requestEvery = interval
  length_scratch : p.writer.scratch.length = RequestWriter.scratchSize

theorem paces_new (interval : Nat) : (new interval).Paces interval :=
  ⟨rfl, Bytes.length_zeros _⟩

/-- So much time has passed since the last request, if there was one. -/
def Waited (interval : Nat) (last : Option Nat) (now : Nat) : Prop :=
  ∀ instant ∈ last, instant + interval ≤ now

variable {p : Poller} {interval : Nat}

theorem Paces.isDue_iff (h : p.Paces interval) (hpos : 0 < interval) (now : Nat) :
    p.isDue now = true ↔ Waited interval p.lastRequest now := by
  unfold isDue Waited
  cases p.lastRequest with
  | none => simp
  | some last =>
      simp only [h.requestEvery_eq, decide_eq_true_eq, Option.mem_some_iff, forall_eq']
      omega

/-- A tick sends one request if it is time, and else does nothing. -/
theorem Paces.tick_cases (h : p.Paces interval) (hpos : 0 < interval) (s : Service η) (now : Nat) :
    (Waited interval p.lastRequest now ∧ ∃ next : Poller,
      next.Paces interval ∧ next.lastRequest = some now ∧
        p.tick s now = (true, next, (s.count .staticStatusRequests).write request)) ∨
    (¬Waited interval p.lastRequest now ∧ p.tick s now = (false, p, s)) := by
  rw [← h.isDue_iff hpos]
  by_cases hdue : p.isDue now = true
  · obtain ⟨hframe, hscratch, _⟩ := RequestWriter.write_of_scratch h.length_scratch .staticStatus
    rw [wireFrame_request] at hframe
    refine .inl ⟨hdue, { p with
      writer := (p.writer.write .staticStatus).2
      lastRequest := some now }, ⟨h.requestEvery_eq, hscratch⟩, rfl, ?_⟩
    rw [tick, if_pos hdue]
    simp only [hframe]
  · exact .inr ⟨hdue, if_neg hdue⟩

end Poller

/-! ## Runs -/

/-- What can happen to a poller and its service. -/
inductive PollAction (η : Type) where
  | tick (now : Nat)
  | service (action : ServiceAction η)

/-- A poller and the service that it sends through. -/
structure Polling (η : Type) where
  poller : Poller
  service : Service η

/-- A tick, and the service before and behind it. -/
structure Tick (η : Type) where
  now : Nat
  sent : Bool
  before : Service η
  after : Service η

namespace PollAction

def instant? : PollAction η → Option Nat
  | tick now => some now
  | service _ => none

def isStop : PollAction η → Bool
  | tick _ => false
  | service action => action.isStop

end PollAction

/-- The instants of the ticks. -/
def instants (actions : List (PollAction η)) : List Nat := actions.filterMap PollAction.instant?

/-- What happens before the first stop. -/
def beforeStop (actions : List (PollAction η)) : List (PollAction η) :=
  actions.takeWhile (!·.isStop)

namespace Polling

def tick (p : Polling η) (now : Nat) : Tick η :=
  let (sent, _, after) := p.poller.tick p.service now
  ⟨now, sent, p.service, after⟩

def perform (p : Polling η) : PollAction η → Polling η
  | .tick now =>
      let (_, poller, service) := p.poller.tick p.service now
      ⟨poller, service⟩
  | .service action => { p with service := (p.service.perform action).service }

def run (p : Polling η) (actions : List (PollAction η)) : Polling η := actions.foldl perform p

/-- The ticks of a run, each as it went. -/
def ticks (p : Polling η) : List (PollAction η) → List (Tick η)
  | [] => []
  | .tick now :: later => p.tick now :: (p.perform (.tick now)).ticks later
  | .service action :: later => (p.perform (.service action)).ticks later

variable {p : Polling η} {interval : Nat}

theorem tick_cases (h : p.poller.Paces interval) (hpos : 0 < interval) (now : Nat) :
    (Poller.Waited interval p.poller.lastRequest now ∧ ∃ next : Poller,
      next.Paces interval ∧ next.lastRequest = some now ∧
      let after := (p.service.count .staticStatusRequests).write Poller.request
      p.tick now = ⟨now, true, p.service, after⟩ ∧ p.perform (.tick now) = ⟨next, after⟩) ∨
    (¬Poller.Waited interval p.poller.lastRequest now ∧
      p.tick now = ⟨now, false, p.service, p.service⟩ ∧ p.perform (.tick now) = p) := by
  rcases h.tick_cases hpos p.service now with ⟨hdue, next, hnext, hlast, htick⟩ | ⟨hdue, htick⟩
  · exact .inl ⟨hdue, next, hnext, hlast, by simp only [tick, htick], by simp only [perform, htick]⟩
  · exact .inr ⟨hdue, by simp only [tick, htick], by simp only [perform, htick]⟩

theorem paces_perform (h : p.poller.Paces interval) (hpos : 0 < interval) (action : PollAction η) :
    (p.perform action).poller.Paces interval := by
  cases action with
  | tick now =>
      rcases tick_cases h hpos now with ⟨_, next, hnext, _, _, heq⟩ | ⟨_, _, heq⟩
      · rw [heq]
        exact hnext
      · rw [heq]
        exact h
  | service action => exact h

theorem now_ticks (p : Polling η) (actions : List (PollAction η)) :
    (p.ticks actions).map Tick.now = instants actions := by
  induction actions generalizing p with
  | nil => rfl
  | cons action later ih =>
      cases action with
      | tick now => exact congrArg (now :: ·) (ih _)
      | service action => exact ih _

/-- Each tick that sends counts and writes the request, and the others do nothing. -/
theorem after_of_mem_ticks (h : p.poller.Paces interval) (hpos : 0 < interval)
    {actions : List (PollAction η)} {t : Tick η} (hmem : t ∈ p.ticks actions) :
    t.after =
      if t.sent then (t.before.count .staticStatusRequests).write Poller.request else t.before := by
  induction actions generalizing p with
  | nil => exact nomatch hmem
  | cons action later ih =>
      cases action with
      | tick now =>
          rcases List.mem_cons.mp hmem with rfl | hlater
          · rcases tick_cases h hpos now with ⟨_, _, _, _, heq, _⟩ | ⟨_, heq, _⟩
            · rw [heq]
              rfl
            · rw [heq]
              rfl
          · exact ih (paces_perform h hpos _) hlater
      | service action => exact ih (paces_perform h hpos _) hmem

end Polling

/-! ## The pace -/

/-- Each of the ticks sends if so much time has passed since the last one that did, or since `last`
if none did. -/
def Paced (interval : Nat) : (last : Option Nat) → List (Tick η) → Prop
  | _, [] => True
  | last, t :: later =>
      (t.sent = true ↔ Poller.Waited interval last t.now) ∧
        Paced interval (if t.sent then some t.now else last) later

theorem Polling.paced_ticks {p : Polling η} {interval : Nat} (h : p.poller.Paces interval)
    (hpos : 0 < interval) (actions : List (PollAction η)) :
    Paced interval p.poller.lastRequest (p.ticks actions) := by
  induction actions generalizing p with
  | nil => exact trivial
  | cons action later ih =>
      have hlater := ih (paces_perform h hpos action)
      cases action with
      | tick now =>
          rcases tick_cases h hpos now with ⟨hdue, next, _, hlast, htick, heq⟩ | ⟨hdue, htick, heq⟩
          · rw [heq, hlast] at hlater
            rw [ticks, heq, htick]
            exact ⟨iff_of_true rfl hdue, hlater⟩
          · rw [heq] at hlater
            rw [ticks, heq, htick]
            exact ⟨iff_of_false Bool.false_ne_true hdue, hlater⟩
      | service action => exact hlater

/-- The instant of the last tick that sent. -/
def lastSend (last : Option Nat) (ticks : List (Tick η)) : Option Nat :=
  ((ticks.filter Tick.sent).getLast?.map Tick.now).or last

theorem lastSend_cons (last : Option Nat) (t : Tick η) (later : List (Tick η)) :
    lastSend last (t :: later) = lastSend (if t.sent then some t.now else last) later := by
  unfold lastSend
  cases hsent : t.sent with
  | false => simp only [List.filter_cons, hsent, Bool.false_eq_true, if_false]
  | true =>
      simp only [List.filter_cons, hsent, if_true, List.getLast?_cons]
      cases (later.filter Tick.sent).getLast? <;> rfl

namespace Paced

variable {interval : Nat} {last : Option Nat} {ticks : List (Tick η)}

theorem sent_iff {earlier later : List (Tick η)} {t : Tick η}
    (h : Paced interval last (earlier ++ t :: later)) :
    t.sent = true ↔ Poller.Waited interval (lastSend last earlier) t.now := by
  induction earlier generalizing last with
  | nil => exact h.1
  | cons e earlier ih =>
      rw [lastSend_cons]
      exact ih h.2

/-- What is sent is sent an interval after `last`, and an interval apart. -/
theorem spaced (h : Paced interval last ticks) :
    (∀ instant ∈ last, ∀ t ∈ ticks.filter Tick.sent, instant + interval ≤ t.now) ∧
      (ticks.filter Tick.sent).Pairwise fun t u => t.now + interval ≤ u.now := by
  induction ticks generalizing last with
  | nil => exact ⟨fun _ _ _ hmem => (List.not_mem_nil hmem).elim, .nil⟩
  | cons t later ih =>
      obtain ⟨hsent, hlater⟩ := h
      cases hsends : t.sent with
      | false =>
          rw [hsends] at hlater
          simpa only [List.filter_cons, hsends, Bool.false_eq_true, if_false] using ih hlater
      | true =>
          rw [hsends] at hlater
          obtain ⟨hbehind, happart⟩ := ih hlater
          have hdue := hsent.mp hsends
          simp only [List.filter_cons, hsends, if_true, List.forall_mem_cons, List.pairwise_cons]
          have hfirst := hbehind t.now rfl
          refine ⟨fun instant hlast => ⟨hdue instant hlast, fun u hmem => ?_⟩, hfirst, happart⟩
          have := hdue instant hlast
          have := hfirst u hmem
          omega

end Paced

/-- Instants that lie apart are not many within two bounds. -/
theorem length_le_of_spaced {interval low high : Nat} (hpos : 0 < interval) {times : List Nat}
    (hspaced : times.Pairwise fun a b => a + interval ≤ b)
    (hbounds : ∀ time ∈ times, low ≤ time ∧ time ≤ high) :
    times.length ≤ 1 + (high - low) / interval := by
  induction times generalizing low with
  | nil => exact Nat.zero_le _
  | cons time later ih =>
      obtain ⟨hfirst, hapart⟩ := List.pairwise_cons.mp hspaced
      obtain ⟨⟨hlow, _⟩, hrest⟩ := List.forall_mem_cons.mp hbounds
      have hlater : ∀ other ∈ later, low + interval ≤ other ∧ other ≤ high := fun other hmem =>
        ⟨Nat.le_trans (Nat.add_le_add_right hlow _) (hfirst other hmem), (hrest other hmem).2⟩
      cases later with
      | nil => exact Nat.le_add_right 1 _
      | cons other rest =>
          have hroom := hlater other List.mem_cons_self
          have hcount := ih hapart hlater
          have hsplit : high - low = high - (low + interval) + interval := by omega
          rw [List.length_cons, hsplit, Nat.add_div_right _ hpos]
          omega

/-! ## Counts -/

/-- How many requests were counted. -/
def Tally.requests (t : Tally) : UInt64 := t.count .staticStatusRequests

/-- What goes its way is no request of a poller, whichever way it goes. -/
theorem Tally.requests_addMessage (t : Tally) (f : Flow) (length : Nat) :
    (t.addMessage f.messages f.bytes length).requests = t.requests :=
  count_addMessage_of_ne t length (by cases f <;> decide) (by cases f <;> decide)

theorem Tally.requests_note (t : Tally) (events : List LinkEvent) :
    (t.note events).requests = t.requests :=
  count_note (by decide) (by decide)

namespace Service

theorem requests_write (s : Service η) (data : Bytes) :
    (s.write data).tally.requests = s.tally.requests := by
  rcases s.write_cases data with ⟨_, heq⟩ | ⟨_, heq⟩ | ⟨_, _, heq⟩ | ⟨_, _, _, _, _, heq⟩
  · rw [heq]
  · rw [heq]
    exact Tally.requests_addMessage ..
  · rw [heq]
    exact Tally.requests_addMessage ..
  · rw [heq]
    exact Tally.requests_addMessage ..

theorem requests_takeNext (s : Service η) : s.takeNext.tally.requests = s.tally.requests := by
  unfold takeNext
  split
  · split <;> rfl
  · split
    · rfl
    · exact Tally.requests_addMessage _ .dequeued _
  · rfl

theorem requests_completeWrite (s : Service η) (script : WriteScript) :
    (s.completeWrite script).service.tally.requests = s.tally.requests := by
  cases hwriter : s.writer with
  | sending message =>
      rw [completeWrite_of_sending hwriter, absorb_eq]
      exact (Tally.requests_addMessage ..).trans (Tally.requests_note ..)
  | off | waiting | done =>
      rw [completeWrite, hwriter]
      rfl

theorem requests_takeIn (s : Service η) (chunk : Bytes) :
    (s.takeIn chunk).service.tally.requests = s.tally.requests := by
  have hcounted : (s.tally.addMessage .reads .readBytes chunk.length).requests = s.tally.requests :=
    Tally.count_addMessage_of_ne _ _ (by decide) (by decide)
  unfold takeIn
  split
  · rfl
  · split
    · exact (Tally.count_add ..).trans hcounted
    · exact (Tally.count_add ..).trans hcounted

theorem requests_beginTurn (s : Service η) :
    s.beginTurn.service.tally.requests = s.tally.requests := by
  unfold beginTurn
  split
  · split
    · rw [leaveReader, absorb_eq]
      exact Tally.requests_note ..
    · split <;> rfl
  · rfl

theorem requests_completeOpen (s : Service η) (opener : Opener) :
    (s.completeOpen opener).service.tally.requests = s.tally.requests := by
  unfold completeOpen
  split
  · rw [absorb_eq]
    exact Tally.requests_note ..
  · rfl

theorem requests_receive (s : Service η) (script : ReadScript) :
    (s.receive script).service.tally.requests = s.tally.requests := by
  unfold receive
  split
  · simp only [absorb_eq]
    exact (requests_takeIn _ _).trans (Tally.requests_note ..)
  · rfl

/-- A service itself counts no requests. -/
theorem closed_requests : Closed (fun (_ : Service η) _ => ([] : List Unit))
    fun s _ step => step.service.tally.requests = s.tally.requests where
  quiet := fun _ => rfl
  andThen := fun hfirst hnext => hnext.trans hfirst
  ending := fun _ => rfl
  dropQueue := fun _ => rfl
  move := by
    intro s action hmove
    cases action with
    | write data => exact s.requests_write data
    | setHandler handler => rfl
    | start =>
        change s.start.2.tally.requests = s.tally.requests
        rcases s.start_cases with heq | ⟨_, _, heq⟩ <;> rw [heq]
    | stop last => cases hmove
    | takeNext => exact s.requests_takeNext
    | completeWrite script => exact s.requests_completeWrite script
    | beginTurn => exact s.requests_beginTurn
    | completeOpen opener => exact s.requests_completeOpen opener
    | receive script => exact s.requests_receive script

theorem requests_perform (s : Service η) (action : ServiceAction η) :
    (s.perform action).service.tally.requests = s.tally.requests :=
  closed_requests.perform s action

end Service

/-- Each tick that sends counts one request. -/
theorem Polling.requests_run {p : Polling η} {interval : Nat} (h : p.poller.Paces interval)
    (hpos : 0 < interval) (actions : List (PollAction η)) :
    (p.run actions).service.tally.requests =
      p.service.tally.requests + UInt64.ofNat ((p.ticks actions).filter Tick.sent).length := by
  induction actions generalizing p with
  | nil => exact (add_zero _).symm
  | cons action later ih =>
      have hlater := ih (paces_perform h hpos action)
      cases action with
      | tick now =>
          rcases tick_cases h hpos now with ⟨_, next, _, _, htick, heq⟩ | ⟨_, htick, heq⟩
          · have hone : (p.perform (.tick now)).service.tally.requests =
                p.service.tally.requests + 1 := by
              rw [heq, Service.requests_write]
              exact Tally.count_add ..
            rw [ticks, htick, List.filter_cons, if_pos rfl, List.length_cons, UInt64.ofNat_add,
              add_comm (UInt64.ofNat _), ← add_assoc]
            exact hlater.trans (congrArg (· + _) hone)
          · have hnone : (p.perform (.tick now)).service.tally.requests =
                p.service.tally.requests := by rw [heq]
            rw [ticks, htick, List.filter_cons, if_neg Bool.false_ne_true, ← hnone]
            exact hlater
      | service action =>
          exact hlater.trans (congrArg (· + _) (p.service.requests_perform action))

/-! ## Requests on the queue -/

/-- A tick adds one message of five bytes to what went one way, and nothing to the others. -/
def Tick.Adds (t : Tick η) (flow : Flow) : Prop :=
  ∀ f, t.after.tally.volume f = t.before.tally.volume f + if f = flow then (1, 5) else 0

theorem Service.volume_count_requests (s : Service η) (f : Flow) :
    (s.count .staticStatusRequests).tally.volume f = s.tally.volume f :=
  Tally.volume_add _ (by cases f <;> decide) (by cases f <;> decide)

/-- As long as the service is not ending, a request is put at the end of the queue, or it is turned
away because the queue is full. -/
theorem Tick.queued_or_turned_away {t : Tick η} (hrunning : t.before.terminating = false)
    (hafter : t.after = (t.before.count .staticStatusRequests).write Poller.request) :
    (t.before.queue.length < t.before.queueCapacity ∧ t.Adds .enqueued ∧
      ∃ message, message.content = Poller.request ∧
        t.after.queue = t.before.queue ++ [message]) ∨
    (t.before.queueCapacity ≤ t.before.queue.length ∧ t.Adds .queueFull ∧
      t.after.queue = t.before.queue) := by
  let counted := t.before.count .staticStatusRequests
  have hadds {flow : Flow} (hverdict : counted.admission Poller.request = some flow) :
      t.Adds flow := by
    intro f
    rw [hafter, Service.volume_write, hverdict, Service.volume_count_requests]
    simp only [Option.some.injEq, eq_comm]
    rfl
  have hadmission : counted.admission Poller.request =
      if counted.queueCapacity ≤ counted.queue.length then some .queueFull else some .enqueued := by
    have hending : ¬counted.terminating = true := Bool.eq_false_iff.mp hrunning
    rw [Service.admission, if_neg hending, if_neg (by decide)]
  rcases counted.write_cases Poller.request with ⟨hnone, _⟩ | ⟨homitted, _⟩ | ⟨hfull, _, heq⟩ |
    ⟨hqueued, message, hcontent, _, hroom, heq⟩
  · exact absurd (Service.admission_eq_none_iff.mp hnone) (Bool.eq_false_iff.mp hrunning)
  · rw [hadmission] at homitted
    split at homitted <;> cases homitted
  · have hlength : counted.queueCapacity ≤ counted.queue.length := by
      refine Nat.le_of_not_lt fun hroom => ?_
      rw [hadmission, if_neg (Nat.not_le.mpr hroom)] at hfull
      cases hfull
    exact .inr ⟨hlength, hadds hfull, by rw [hafter, heq]; rfl⟩
  · exact .inl ⟨hroom, hadds hqueued, message, hcontent, by rw [hafter, heq]; rfl⟩

theorem Polling.terminating_ticks {p : Polling η} {interval : Nat} (h : p.poller.Paces interval)
    (hpos : 0 < interval) (hrunning : p.service.terminating = false)
    {actions : List (PollAction η)} (hactions : ∀ action ∈ actions, action.isStop = false) :
    ∀ t ∈ p.ticks actions, t.before.terminating = false := by
  induction actions generalizing p with
  | nil => exact fun _ hmem => nomatch hmem
  | cons action later ih =>
      obtain ⟨hfirst, hrest⟩ := List.forall_mem_cons.mp hactions
      have hlater := ih (paces_perform h hpos action)
      cases action with
      | tick now =>
          have hkept : (p.perform (.tick now)).service.terminating = false := by
            rcases tick_cases h hpos now with ⟨_, next, _, _, _, heq⟩ | ⟨_, _, heq⟩
            · rw [heq]
              exact (Service.write_kept _ _).2.1.trans hrunning
            · rw [heq]
              exact hrunning
          exact List.forall_mem_cons.mpr ⟨hrunning, hlater hkept hrest⟩
      | service action =>
          refine hlater ?_ hrest
          have hending := p.service.terminating_perform action
          rw [show action.isStop = false from hfirst, hrunning] at hending
          exact hending

/-! ## Whole runs -/

/-- The pace of a poller, whatever else happens to its service. The first tick sends a request, and
each tick behind it sends one if and only if an interval has passed since the last that did. So
what is sent is sent an interval apart, and at most once in each interval that has begun. Each tick
that sends counts one request and makes one write call, and the others do nothing; nobody else
counts requests. Before the stop, a request is put at the end of the queue and counted there, or it
is turned away because the queue is full, and counted so. -/
theorem requests_are_paced {interval : Nat} (hpos : 0 < interval) (s : Service η)
    (actions : List (PollAction η)) (hsorted : (instants actions).Pairwise (· ≤ ·)) :
    let start : Polling η := ⟨.new interval, s⟩
    let ticks := start.ticks actions
    let sends := ticks.filter Tick.sent
    let frame : Bytes := [0x02, 0x10, 0xF3, 0xC1, 0x03]
    ticks.map Tick.now = instants actions ∧
    (∀ t ∈ ticks.head?, t.sent = true) ∧
    (∀ earlier t later, ticks = earlier ++ t :: later →
      (t.sent = true ↔
        ∀ last ∈ (earlier.filter Tick.sent).getLast?, last.now + interval ≤ t.now)) ∧
    sends.Pairwise (fun t u => t.now + interval ≤ u.now) ∧
    (∀ first ∈ (instants actions).head?, ∀ last ∈ (instants actions).getLast?,
      sends.length ≤ 1 + (last - first) / interval) ∧
    (start.run actions).service.tally.count .staticStatusRequests =
      s.tally.count .staticStatusRequests + UInt64.ofNat sends.length ∧
    (∀ t ∈ ticks,
      t.after = if t.sent then (t.before.count .staticStatusRequests).write frame else t.before) ∧
    (s.terminating = false → ∀ t ∈ start.ticks (beforeStop actions), t.sent = true →
      (t.before.queue.length < t.before.queueCapacity ∧ t.Adds .enqueued ∧
        ∃ message, message.content = frame ∧ t.after.queue = t.before.queue ++ [message]) ∨
      (t.before.queueCapacity ≤ t.before.queue.length ∧ t.Adds .queueFull ∧
        t.after.queue = t.before.queue)) := by
  intro start ticks sends frame
  have hpaces : start.poller.Paces interval := Poller.paces_new interval
  have hpaced : Paced interval none ticks := Polling.paced_ticks hpaces hpos actions
  have hinstants : ticks.map Tick.now = instants actions := start.now_ticks actions
  have hspaced := hpaced.spaced.2
  refine ⟨hinstants, fun t hhead => ?_, fun earlier t later hsplit => ?_, hspaced,
    fun first hfirst last hlast => ?_, Polling.requests_run hpaces hpos actions,
    fun t hmem => Polling.after_of_mem_ticks hpaces hpos hmem, fun hrunning t hmem hsent => ?_⟩
  · obtain ⟨later, heq⟩ := List.head?_eq_some_iff.mp hhead
    rw [heq] at hpaced
    exact hpaced.1.mpr fun _ hnone => nomatch hnone
  · rw [hsplit] at hpaced
    rw [hpaced.sent_iff, Poller.Waited, lastSend, Option.or_none]
    exact Option.forall_mem_map
  · have htimes : (sends.map Tick.now).length ≤ 1 + (last - first) / interval := by
      refine length_le_of_spaced hpos (List.pairwise_map.mpr hspaced) fun time hmem => ?_
      have hwithin : time ∈ instants actions := by
        rw [← hinstants]
        exact ((List.filter_sublist).map Tick.now).subset hmem
      rw [← List.head_of_mem_head? hfirst, ← List.getLast_of_mem_getLast? hlast]
      exact ⟨hsorted.rel_head hwithin, hsorted.rel_getLast hwithin⟩
    rwa [List.length_map] at htimes
  · have hcalm : ∀ action ∈ beforeStop actions, action.isStop = false := fun action haction => by
      simpa using List.mem_takeWhile_imp haction
    refine Tick.queued_or_turned_away (Polling.terminating_ticks hpaces hpos hrunning hcalm t hmem) ?_
    rw [Polling.after_of_mem_ticks hpaces hpos hmem, if_pos hsent]

/-- The second tick comes too early, whatever was written and taken in between. -/
theorem requests_are_paced_between_writes :
    let s : Service Unit := .new .default ()
    let actions : List (PollAction Unit) :=
      [.service .start, .tick 5, .service .takeNext, .service (.write [0x31]), .tick 9, .tick 15]
    let sends := (Polling.ticks ⟨.new 10, s⟩ actions).filter Tick.sent
    0 < 10 ∧ (instants actions).Pairwise (· ≤ ·) ∧ sends.map Tick.now = [5, 15] ∧
    sends.Pairwise (fun t u => t.now + 10 ≤ u.now) ∧
    (Polling.run ⟨.new 10, s⟩ actions).service.tally.count .staticStatusRequests =
      UInt64.ofNat 2 := by
  intro s actions sends
  have hsorted : (instants actions).Pairwise (· ≤ ·) := by decide
  have hsends : sends.map Tick.now = [5, 15] := by decide +kernel
  have hlength : sends.length = 2 := by
    rw [← List.length_map Tick.now, hsends]
    rfl
  have hzero : s.tally.count .staticStatusRequests = 0 := Tally.count_zero _
  obtain ⟨_, _, _, hspaced, _, hcount, _⟩ := requests_are_paced (by decide : 0 < 10) s actions hsorted
  rw [hzero, zero_add] at hcount
  exact ⟨by decide, hsorted, hsends, hspaced, hcount.trans (congrArg UInt64.ofNat hlength)⟩

end CabinetBus
