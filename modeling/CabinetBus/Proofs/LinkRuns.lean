-- SUMMARY: What holds of a link between any two calls on it, and what each call reports.
import Mathlib.Data.List.Chain
import CabinetBus.Proofs.Observing
import CabinetBus.Proofs.Reporting

/-!
# Runs of a link

A run is any sequence of calls on a link that starts out closed, with any answers of the
port. Between two calls the link is up or down and never in between, and it holds both of its
handles or none. Its reports tell the same story: connects and disconnects take turns, and
bytes are reported only while it is up. A call that fails reports so once, behind the
disconnect of a link that was up, and leaves the link down.
-/

namespace CabinetBus

open LinkEvent (reports followAll)

/-! ## Runs -/

namespace Connection

/-- The link behind calls made in order. -/
def after (c : Connection) (calls : List LinkCall) : Connection :=
  (c.calls calls).foldl (fun _ step => step.link) c

/-- What happens during calls made in order. -/
def eventsOf (c : Connection) (calls : List LinkCall) : List LinkEvent :=
  (c.calls calls).flatMap LinkStep.events

theorem eventsOf_cons (c : Connection) (call : LinkCall) (rest : List LinkCall) :
    c.eventsOf (call :: rest) = (c.call call).events ++ (c.call call).link.eventsOf rest := rfl

end Connection

/-- The calls of a run. A link that is dropped at its end closes as by a disconnect. -/
def runOf (calls : List LinkCall) (dropped : Bool) : List LinkCall :=
  if dropped then calls ++ [.disconnect] else calls

/-! ## Turns of a link -/

namespace LinkEvent

/-- Whether an event brings the link up or takes it down, if it does either. -/
def switch? : LinkEvent → Option Bool
  | .connect _ => some true
  | .disconnect _ => some false
  | _ => none

/-- The connects and disconnects among events, in order. -/
def switches (events : List LinkEvent) : List Bool := events.filterMap switch?

/-- The state of the link when bytes were read or written. -/
def transferState? : LinkEvent → Option LinkState
  | .read _ state | .wrote _ state => some state
  | _ => none

theorem follow_of_switch {up up' turn : Bool} {event : LinkEvent}
    (h : event.follow up = some up') (hturn : event.switch? = some turn) :
    up = !turn ∧ up' = turn := by
  cases event with
  | connect | disconnect =>
      cases hturn
      cases up <;> cases h
      exact ⟨rfl, rfl⟩
  | wrote | read | error | opening | portTimeout | portWrite | portWriteError | portFlush =>
      cases hturn

theorem follow_of_none {up up' : Bool} {event : LinkEvent} (h : event.follow up = some up')
    (hturn : event.switch? = none) : up' = up := by
  cases event with
  | connect | disconnect => cases hturn
  | wrote | read =>
      cases up <;> cases h
      rfl
  | error | opening | portTimeout | portWrite | portWriteError | portFlush =>
      exact (Option.some.inj h).symm

/-- Events that can be followed switch the link alternately, from its state before them to its
state behind them. -/
theorem switches_of_followAll {up up' : Bool} {events : List LinkEvent}
    (h : followAll up events = some up') :
    (up :: switches events).IsChain (· ≠ ·) ∧
      (switches events).count true + up.toNat = (switches events).count false + up'.toNat := by
  induction events generalizing up with
  | nil =>
      cases h
      exact ⟨List.isChain_singleton _, rfl⟩
  | cons event rest ih =>
      rw [followAll_cons] at h
      obtain ⟨next, hnext, hrest⟩ := Option.bind_eq_some_iff.mp h
      obtain ⟨hchain, hcount⟩ := ih hrest
      cases hturn : event.switch? with
      | none =>
          obtain rfl := follow_of_none hnext hturn
          rw [switches, List.filterMap_cons_none hturn]
          exact ⟨hchain, hcount⟩
      | some turn =>
          obtain ⟨rfl, rfl⟩ := follow_of_switch hnext hturn
          rw [switches, List.filterMap_cons_some hturn, ← switches]
          refine ⟨List.isChain_cons_cons.mpr ⟨by simp, hchain⟩, ?_⟩
          cases next with
          | true =>
              rw [List.count_cons_self, List.count_cons_of_ne (by decide)]
              exact hcount
          | false =>
              rw [List.count_cons_self, List.count_cons_of_ne (by decide)]
              rw [Bool.toNat_false] at hcount
              change _ + 1 = _
              omega

/-- Bytes are read and written only while the link is up. -/
theorem follow_transfer {event : LinkEvent} {state : LinkState}
    (h : event.transferState? = some state) (up : Bool) :
    event.follow up = if up = true then some true else none := by
  cases event with
  | wrote | read => rfl
  | connect | disconnect | error | opening | portTimeout | portWrite | portWriteError | portFlush =>
      cases h

/-- A transfer is told to the owner, and is no failure. -/
theorem isReport_of_transfer {event : LinkEvent} {state : LinkState}
    (h : event.transferState? = some state) : event.isReport = true ∧ event.failure? = none := by
  cases event with
  | wrote | read => exact ⟨rfl, rfl⟩
  | connect | disconnect | error | opening | portTimeout | portWrite | portWriteError | portFlush =>
      cases h

end LinkEvent

/-! ## Failures of calls -/

/-- The first failure of a port that is opened, set up and split. -/
def OpenScript.failure? (script : OpenScript) : Option LinkError :=
  script.openError <|> script.timeoutError.map .io <|> script.cloneError.map .io

/-- Why an opener gives no port for the settings, if it does not. -/
def Opener.failure? (settings : SerialSettings) : Opener → Option LinkError
  | .scripted script => script.failure?
  | .system host =>
      match settings.openOn host with
      | .error e => some e
      | .ok () => none

/-- The first failure of a read of the port. -/
def ReadScript.failure? (script : ReadScript) : Option IoError :=
  script.timeoutError <|>
    match script.answer with
    | .error e => some e
    | .ok _ => none

/-- What makes a call on a link fail, if anything does: an attempt to open the port that comes
to nothing, a failure to read that is worth reporting, or a write that is answered by an error. -/
def LinkCall.failure? (c : Connection) : LinkCall → Option LinkError
  | .connect opener => if c.begin.1 = .opening then opener.failure? c.settings else none
  | .read _ script =>
      if c.hasReader then (script.failure?.filter fun e => !e.kind.isTransient).map .io else none
  | .write data script =>
      match (c.write data script).value with
      | .error e => some e
      | .ok () => none
  | .disconnect => none

namespace Connection

theorem openPort_eq_error_iff {c : Connection} {opener : Opener} {e : LinkError} :
    (c.openPort opener).1 = .error e ↔ opener.failure? c.settings = some e := by
  cases opener with
  | system host =>
      simp only [openPort, Opener.failure?]
      cases c.settings.openOn host <;> simp
  | scripted script =>
      obtain ⟨openError, timeoutError, cloneError⟩ := script
      cases openError <;> cases timeoutError <;> cases cloneError <;>
        simp [openPort, Opener.failure?, OpenScript.failure?]

theorem portRead_eq_error_iff {script : ReadScript} {size : Nat} {e : IoError} :
    portRead script size = .error e ↔ script.failure? = some e := by
  obtain ⟨timeoutError, answer⟩ := script
  cases timeoutError <;> cases answer <;> simp [portRead, ReadScript.failure?, Except.map]

/-- The four ends of a connect: the link is up already, the pacing lets the call pass by, the
port opens, or it does not. -/
theorem connect_cases (c : Connection) (opener : Opener) :
    let step := c.connect opener
    (c.connected = true ∧ c.begin.1 = .alreadyConnected ∧ step = ⟨true, c, []⟩) ∨
    (c.connected = false ∧ c.begin.1 = .declined ∧ c.pacing.attempt.1 = false ∧
      step = ⟨false, { c with pacing := c.pacing.attempt.2 }, []⟩) ∨
    (c.connected = false ∧ c.begin.1 = .opening ∧ c.pacing.attempt.1 = true ∧
      opener.failure? c.settings = none ∧ reports step.events = [.connect .connected] ∧
      step.value = true ∧ step.link =
        { c with hasReader := true, hasWriter := true, connected := true, connecting := false,
                 pacing := c.pacing.attempt.2.reset }) ∨
    (c.connected = false ∧ c.begin.1 = .opening ∧ c.pacing.attempt.1 = true ∧ ∃ e,
      opener.failure? c.settings = some e ∧ reports step.events = [.error e step.link.state] ∧
      step.value = false ∧
      step.link = { c with connecting := false, pacing := c.pacing.attempt.2 }) := by
  dsimp only
  by_cases hup : c.connected = true
  · have hbegin : c.begin = (.alreadyConnected, c) := by rw [begin, if_pos hup]
    exact .inl ⟨hup, by rw [hbegin], by rw [connect, hbegin]⟩
  have hdown : c.connected = false := Bool.eq_false_iff.mpr hup
  by_cases hpermitted : c.pacing.attempt.1 = true
  · let asking := { c with pacing := c.pacing.attempt.2, connecting := true }
    have hbegin : c.begin = (.opening, asking) := by simp [begin, hup, hpermitted, asking]
    have hstep : c.connect opener = asking.complete opener := by rw [connect, hbegin]
    have hopening : c.begin.1 = .opening := by rw [hbegin]
    have hport (e : LinkError) : (asking.openPort opener).1 = .error e ↔
        opener.failure? c.settings = some e := openPort_eq_error_iff
    rw [hstep]
    rcases asking.complete_cases opener with
      ⟨hok, hreports, hvalue, hlink⟩ | ⟨e, herror, hreports, hvalue, hlink⟩
    · refine .inr (.inr (.inl ⟨hdown, hopening, hpermitted, ?_, hreports, hvalue, hlink⟩))
      rw [Option.eq_none_iff_forall_ne_some]
      intro e he
      rw [← hport, hok] at he
      cases he
    · exact .inr (.inr (.inr
        ⟨hdown, hopening, hpermitted, e, (hport e).mp herror, hreports, hvalue, hlink⟩))
  · have hbegin : c.begin = (.declined, { c with pacing := c.pacing.attempt.2 }) := by
      simp [begin, hup, hpermitted]
    exact .inr (.inl ⟨hdown, by rw [hbegin], Bool.eq_false_iff.mpr hpermitted,
      by rw [connect, hbegin]⟩)

/-- A read with a failure worth reporting takes the link down and reports it. -/
theorem read_of_failure {c : Connection} {size : Nat} {script : ReadScript} {e : LinkError}
    (h : (LinkCall.read size script).failure? c = some e) :
    reports (c.read size script).events =
        reports c.disconnect.events ++ [.error e c.disconnect.link.state] ∧
      (c.read size script).link = c.disconnect.link := by
  rw [LinkCall.failure?] at h
  split at h
  · rename_i hreader
    obtain ⟨fault, hfault, rfl⟩ := Option.map_eq_some_iff.mp h
    obtain ⟨hscript, hkind⟩ := Option.filter_eq_some_iff.mp hfault
    rw [Bool.not_eq_true'] at hkind
    have hport : portRead script size = .error fault := portRead_eq_error_iff.mpr hscript
    simp only [read, hreader, hport, hkind, if_true, Bool.false_eq_true, if_false, fail, and_true]
    exact LinkEvent.reports_append _ _
  · cases h

/-- A read without one keeps the link, and reports the bytes it found if it found any. -/
theorem read_of_no_failure {c : Connection} {size : Nat} {script : ReadScript}
    (h : (LinkCall.read size script).failure? c = none) :
    (c.read size script).link = c ∧
      (reports (c.read size script).events = [] ∨
        c.hasReader = true ∧
          ∃ data, reports (c.read size script).events = [.read data c.state]) := by
  by_cases hreader : c.hasReader = true
  · rw [LinkCall.failure?, if_pos hreader, Option.map_eq_none_iff] at h
    rw [read, if_pos hreader]
    cases hport : portRead script size with
    | error e =>
        have hkind : e.kind.isTransient = true := by
          rw [portRead_eq_error_iff.mp hport] at h
          simpa using h
        simp only [hkind, if_true]
        exact ⟨trivial, .inl rfl⟩
    | ok data =>
        cases data with
        | nil => exact ⟨rfl, .inl rfl⟩
        | cons b rest => exact ⟨rfl, .inr ⟨hreader, _, rfl⟩⟩
  · rw [read, if_neg hreader]
    exact ⟨rfl, .inl rfl⟩

/-! ## Settled links -/

/-- A link between two calls: its handles go with its state, and it is not being opened. -/
structure Settled (c : Connection) : Prop extends c.Paired where
  connecting_eq : c.connecting = false

variable {c : Connection}

theorem settled_closed (settings : SerialSettings) (readTimeoutMs : UInt64) (pacing : Pacing) :
    (closed settings readTimeoutMs pacing).Settled := ⟨paired_closed .., rfl⟩

theorem Settled.state_eq (h : c.Settled) :
    c.state = if c.connected = true then .connected else .disconnected := by
  rw [state, h.connecting_eq]
  rfl

theorem Settled.state_eq_connected_iff (h : c.Settled) :
    c.state = .connected ↔ c.connected = true := by
  rw [h.state_eq]
  cases c.connected <;> decide

theorem connecting_disconnect (c : Connection) : c.disconnect.link.connecting = c.connecting := by
  unfold disconnect
  split <;> rfl

theorem Settled.disconnect (h : c.Settled) : c.disconnect.link.Settled :=
  ⟨h.toPaired.disconnect.paired, by rw [connecting_disconnect, h.connecting_eq]⟩

theorem Settled.state_disconnect (h : c.Settled) : c.disconnect.link.state = .disconnected := by
  rw [h.disconnect.state_eq, connected_disconnect]
  rfl

theorem Settled.events_disconnect (h : c.Settled) :
    c.disconnect.events = if c.state = .connected then [.disconnect .disconnected] else [] := by
  have hstate := h.state_disconnect
  unfold Connection.disconnect at hstate ⊢
  simp only [h.state_eq_connected_iff]
  split
  · rename_i hup
    rw [if_pos hup] at hstate
    exact congrArg (fun state => [LinkEvent.disconnect state]) hstate
  · rfl

/-! ## Single calls -/

/-- A failure was reported as it should be: once, behind the disconnect of a link that was up,
with the link down and without handles behind it. -/
structure TornDown (c : Connection) (e : LinkError) (step : LinkStep LinkAnswer) : Prop where
  reports_eq : reports step.events =
    (if c.state = .connected then [.disconnect .disconnected] else []) ++ [.error e .disconnected]
  state_eq : step.link.state = .disconnected
  hasReader_eq : step.link.hasReader = false
  hasWriter_eq : step.link.hasWriter = false

/-- A call keeps a link settled, follows its turns, moves bytes only while it is up, and
accounts for its failures. -/
structure Orderly (c : Connection) (call : LinkCall) : Prop where
  settled : (c.call call).link.Settled
  followAll_eq : followAll c.connected (c.call call).events = some (c.call call).link.connected
  transferState_eq : ∀ event ∈ (c.call call).events, ∀ state,
    event.transferState? = some state → state = .connected
  errors_eq : (c.call call).events.filterMap LinkEvent.failure? = (call.failure? c).toList
  tornDown : ∀ e, call.failure? c = some e → c.TornDown e (c.call call)

/-- What is said of reports alone holds of a call whose reports are known. -/
theorem Orderly.of_reports {call : LinkCall} {told : List LinkEvent}
    (hsettled : (c.call call).link.Settled) (htold : reports (c.call call).events = told)
    (hfollow : followAll c.connected told = some (c.call call).link.connected)
    (htransfer : ∀ event ∈ told, ∀ state, event.transferState? = some state → state = .connected)
    (herrors : told.filterMap LinkEvent.failure? = (call.failure? c).toList)
    (htorn : ∀ e, call.failure? c = some e → c.TornDown e (c.call call)) : c.Orderly call where
  settled := hsettled
  followAll_eq := by rw [← LinkEvent.followAll_reports, htold, hfollow]
  transferState_eq := by
    intro event hmem state hstate
    refine htransfer event ?_ state hstate
    rw [← htold, reports, List.mem_filter]
    exact ⟨hmem, (LinkEvent.isReport_of_transfer hstate).1⟩
  errors_eq := by
    rw [← herrors, ← htold, LinkEvent.filterMap_reports]
    intro event hreport
    cases event with
    | opening | portTimeout | portWrite | portWriteError | portFlush => rfl
    | connect | disconnect | error | wrote | read => cases hreport
  tornDown := htorn

/-- A call that fails on a settled link and tears it down is orderly. -/
theorem Orderly.of_failure {call : LinkCall} {e : LinkError} (hc : c.Settled)
    (hfailure : call.failure? c = some e) (hsettled : (c.call call).link.Settled)
    (htorn : c.TornDown e (c.call call)) : c.Orderly call := by
  have hdown : (c.call call).link.connected = false := by
    rw [← hsettled.hasReader_eq, htorn.hasReader_eq]
  refine .of_reports hsettled htorn.reports_eq ?_ ?_ ?_ ?_
  · rw [hdown, ← hc.events_disconnect, LinkEvent.followAll_append,
      hc.toPaired.disconnect.followAll_eq, connected_disconnect]
    rfl
  · intro event hmem state hstate
    rw [List.mem_append, List.mem_singleton] at hmem
    rcases hmem with hmem | rfl
    · split at hmem
      · rw [List.mem_singleton] at hmem
        subst hmem
        cases hstate
      · cases hmem
    · cases hstate
  · rw [hfailure]
    split <;> rfl
  · intro other hother
    rw [hfailure] at hother
    cases hother
    exact htorn

/-- A call on which nothing happens is orderly if it keeps the handles and has no failure. -/
theorem Orderly.of_silent {call : LinkCall} (hsettled : (c.call call).link.Settled)
    (htold : reports (c.call call).events = [])
    (hlink : (c.call call).link.connected = c.connected) (hfailure : call.failure? c = none) :
    c.Orderly call :=
  .of_reports hsettled htold (by rw [hlink]; rfl) (by simp) (by rw [hfailure]; rfl)
    (by simp [hfailure])

theorem Settled.connect (hc : c.Settled) (opener : Opener) : c.Orderly (.connect opener) := by
  rcases c.connect_cases opener with ⟨_, hbegin, hstep⟩ | ⟨_, hbegin, _, hstep⟩ |
    ⟨hdown, hbegin, _, hopener, hreports, _, hlink⟩ |
    ⟨hdown, hbegin, _, e, hopener, hreports, _, hlink⟩
  · refine .of_silent ?_ ?_ ?_ ?_
    · simpa only [call, hstep] using hc
    · simp only [call, hstep]
      rfl
    · simp only [call, hstep]
    · rw [LinkCall.failure?, hbegin]
      rfl
  · refine .of_silent ?_ ?_ ?_ ?_
    · simp only [call, hstep]
      exact ⟨⟨hc.hasReader_eq, hc.hasWriter_eq⟩, hc.connecting_eq⟩
    · simp only [call, hstep]
      rfl
    · simp only [call, hstep]
    · rw [LinkCall.failure?, hbegin]
      rfl
  · have hfailure : (LinkCall.connect opener).failure? c = none := by
      rw [LinkCall.failure?, hbegin, if_pos rfl, hopener]
    refine .of_reports ?_ hreports ?_ ?_ ?_ ?_
    · simp only [call, hlink]
      exact ⟨⟨rfl, rfl⟩, rfl⟩
    · simp only [call, hlink, hdown]
      rfl
    · simp [LinkEvent.transferState?]
    · rw [hfailure]
      rfl
    · simp [hfailure]
  · have hidle : (c.call (.connect opener)).link =
        { c with connecting := false, pacing := c.pacing.attempt.2 } := hlink
    have hsettled : (c.call (.connect opener)).link.Settled := by
      rw [hidle]
      exact ⟨⟨hc.hasReader_eq, hc.hasWriter_eq⟩, rfl⟩
    have hstate : (c.call (.connect opener)).link.state = .disconnected := by
      rw [hsettled.state_eq, hidle, hdown]
      rfl
    refine .of_failure hc (e := e) ?_ hsettled ⟨?_, hstate, ?_, ?_⟩
    · rw [LinkCall.failure?, hbegin, if_pos rfl, hopener]
    · rw [if_neg (by rw [hc.state_eq_connected_iff, hdown]; decide)]
      exact hreports.trans (congrArg (fun state => [LinkEvent.error e state]) hstate)
    · rw [hidle, hc.hasReader_eq, hdown]
    · rw [hidle, hc.hasWriter_eq, hdown]

/-- A failure on a settled link that disconnects and then reports an error. -/
theorem Settled.orderly_of_disconnect (hc : c.Settled) {call : LinkCall} {e : LinkError}
    (hfailure : call.failure? c = some e)
    (hreports : reports (c.call call).events =
      reports c.disconnect.events ++ [.error e c.disconnect.link.state])
    (hlink : (c.call call).link = c.disconnect.link) : c.Orderly call := by
  refine .of_failure hc hfailure (by rw [hlink]; exact hc.disconnect) ⟨?_, ?_, ?_, ?_⟩
  · rw [hreports, hc.state_disconnect, hc.events_disconnect]
    split <;> rfl
  · rw [hlink, hc.state_disconnect]
  · rw [hlink, hc.disconnect.hasReader_eq, connected_disconnect]
  · rw [hlink, hc.disconnect.hasWriter_eq, connected_disconnect]

/-- A call that moves bytes on a link that is up, and keeps it. -/
theorem Settled.orderly_of_transfer (hc : c.Settled) {call : LinkCall} {event : LinkEvent}
    (hup : c.connected = true) (hfailure : call.failure? c = none)
    (hreports : reports (c.call call).events = [event]) (hlink : (c.call call).link = c)
    (htransfer : event.transferState? = some c.state) : c.Orderly call := by
  refine .of_reports (by rwa [hlink]) hreports ?_ ?_ ?_ ?_
  · rw [hlink, hup, LinkEvent.followAll_cons, LinkEvent.follow_transfer htransfer]
    rfl
  · intro other hmem state hstate
    rw [List.mem_singleton.mp hmem, htransfer] at hstate
    rw [← Option.some.inj hstate, hc.state_eq_connected_iff, hup]
  · rw [hfailure, List.filterMap_cons_none (LinkEvent.isReport_of_transfer htransfer).2]
    rfl
  · intro e he
    rw [hfailure] at he
    cases he

theorem Settled.read (hc : c.Settled) (size : Nat) (script : ReadScript) :
    c.Orderly (.read size script) := by
  cases hfailure : (LinkCall.read size script).failure? c with
  | some e =>
      obtain ⟨hreports, hlink⟩ := read_of_failure hfailure
      exact hc.orderly_of_disconnect hfailure hreports hlink
  | none =>
      obtain ⟨hlink, hreports | ⟨hreader, data, hreports⟩⟩ := read_of_no_failure hfailure
      · exact .of_silent (by simpa only [call, hlink] using hc) hreports
          (by simp only [call, hlink]) hfailure
      · exact hc.orderly_of_transfer (hc.hasReader_eq ▸ hreader) hfailure hreports hlink rfl

theorem Settled.write (hc : c.Settled) (data : Bytes) (script : WriteScript) :
    c.Orderly (.write data script) := by
  have hfailure : (LinkCall.write data script).failure? c =
      match (c.write data script).value with
      | .error e => some e
      | .ok () => none := rfl
  rcases c.write_cases data script with ⟨hwriter, hreports, hvalue, hlink⟩ |
    ⟨_, hlink, e, hvalue, hreports⟩ | ⟨hwriter, hreports, hvalue, hlink⟩ <;>
    rw [hvalue] at hfailure
  · exact hc.orderly_of_transfer (hc.hasWriter_eq ▸ hwriter) hfailure hreports hlink rfl
  · exact hc.orderly_of_disconnect hfailure hreports hlink
  · -- Without a link there is nothing to take down.
    have hdown : c.disconnect = ⟨(), c, []⟩ := by
      rw [Connection.disconnect, if_neg (by rw [← hc.hasWriter_eq, hwriter]; decide)]
    refine hc.orderly_of_disconnect hfailure ?_ ?_
    · rw [hdown]
      exact hreports
    · rw [hdown]
      exact hlink

theorem Settled.orderly_disconnect (hc : c.Settled) : c.Orderly .disconnect := by
  have htold : reports (c.call .disconnect).events = c.disconnect.events := by
    change reports c.disconnect.events = _
    rw [hc.events_disconnect]
    split <;> rfl
  refine .of_reports hc.disconnect htold hc.toPaired.disconnect.followAll_eq ?_ ?_ ?_
  · rw [hc.events_disconnect]
    intro event hmem state hstate
    split at hmem
    · rw [List.mem_singleton.mp hmem] at hstate
      cases hstate
    · cases hmem
  · rw [hc.events_disconnect]
    split <;> rfl
  · simp [LinkCall.failure?]

theorem Settled.orderly (hc : c.Settled) (call : LinkCall) : c.Orderly call := by
  cases call with
  | connect opener => exact hc.connect opener
  | read size script => exact hc.read size script
  | write data script => exact hc.write data script
  | disconnect => exact hc.orderly_disconnect

/-! ## All calls of a run -/

/-- What is true between two calls of the link and of all that has happened on it. -/
structure Consistent (c : Connection) (events : List LinkEvent) : Prop where
  /-- The link is up or down, and not being opened. -/
  state_ne : c.state ≠ .connecting
  hasReader_iff : c.hasReader = true ↔ c.state = .connected
  hasWriter_iff : c.hasWriter = true ↔ c.state = .connected
  /-- Connects and disconnects alternate, and the first is a connect. -/
  alternate : (false :: LinkEvent.switches events).IsChain (· ≠ ·)
  counts : (LinkEvent.switches events).count true =
    (LinkEvent.switches events).count false + if c.state = .connected then 1 else 0
  /-- Bytes are read and written in the state connected, behind one connect more than there
  were disconnects. -/
  transfers : ∀ front event back state, events = front ++ event :: back →
    event.transferState? = some state →
    state = .connected ∧
      (LinkEvent.switches front).count true = (LinkEvent.switches front).count false + 1

theorem Settled.after (hc : c.Settled) (calls : List LinkCall) : (c.after calls).Settled := by
  induction calls generalizing c with
  | nil => exact hc
  | cons call rest ih => exact ih (hc.orderly call).settled

theorem Settled.followAll_eventsOf (hc : c.Settled) (calls : List LinkCall) :
    followAll c.connected (c.eventsOf calls) = some (c.after calls).connected := by
  induction calls generalizing c with
  | nil => rfl
  | cons call rest ih =>
      have hcall := hc.orderly call
      rw [eventsOf_cons, LinkEvent.followAll_append, hcall.followAll_eq]
      exact ih hcall.settled

theorem Settled.transferState_eventsOf (hc : c.Settled) {calls : List LinkCall}
    {event : LinkEvent} {state : LinkState} (hmem : event ∈ c.eventsOf calls)
    (hstate : event.transferState? = some state) : state = .connected := by
  induction calls generalizing c with
  | nil => cases hmem
  | cons call rest ih =>
      have hcall := hc.orderly call
      rw [eventsOf_cons, List.mem_append] at hmem
      rcases hmem with hnow | hlater
      · exact hcall.transferState_eq event hnow state hstate
      · exact ih hcall.settled hlater

theorem consistent_of_closed (settings : SerialSettings) (readTimeoutMs : UInt64)
    (pacing : Pacing) (calls : List LinkCall) :
    let start := closed settings readTimeoutMs pacing
    (start.after calls).Consistent (start.eventsOf calls) := by
  intro start
  have hstart : start.Settled := settled_closed settings readTimeoutMs pacing
  have hend := hstart.after calls
  have hfollow : followAll false (start.eventsOf calls) = some (start.after calls).connected :=
    hstart.followAll_eventsOf calls
  obtain ⟨hchain, hcount⟩ := LinkEvent.switches_of_followAll hfollow
  have hup : (start.after calls).connected.toNat =
      if (start.after calls).state = .connected then 1 else 0 := by
    simp only [hend.state_eq_connected_iff]
    cases (start.after calls).connected <;> rfl
  refine ⟨?_, ?_, ?_, hchain, by rw [← hup]; exact hcount, ?_⟩
  · rw [hend.state_eq]
    split <;> decide
  · rw [hend.state_eq_connected_iff, hend.hasReader_eq]
  · rw [hend.state_eq_connected_iff, hend.hasWriter_eq]
  · intro front event back state hsplit hstate
    have hmem : event ∈ start.eventsOf calls := by
      rw [hsplit]
      simp
    refine ⟨hstart.transferState_eventsOf hmem hstate, ?_⟩
    rw [hsplit, LinkEvent.followAll_append] at hfollow
    obtain ⟨up, hfront, hback⟩ := Option.bind_eq_some_iff.mp hfollow
    rw [LinkEvent.followAll_cons, LinkEvent.follow_transfer hstate] at hback
    obtain ⟨_, hcountFront⟩ := LinkEvent.switches_of_followAll hfront
    split at hback
    · rename_i hup
      rw [hup] at hcountFront
      exact hcountFront
    · cases hback

/-- A run of calls on a link, dropped at its end or not, with any answers of the opener and
the port. Between calls the link is up or down, with both handles or none; it reports connects
and disconnects in turn, and bytes only while it is up. Each call reports one error if it fails,
behind the disconnect of a link that was up, and leaves the link down without handles; a call
that does not fail reports none. -/
theorem link_reports_its_state (settings : SerialSettings) (readTimeoutMs : UInt64)
    (pacing : Pacing) (calls : List LinkCall) (dropped : Bool) :
    let start := closed settings readTimeoutMs pacing
    let run := runOf calls dropped
    (start.after run).Consistent (start.eventsOf run) ∧
    ∀ front call back, run = front ++ call :: back →
      let c := start.after front
      (c.call call).events.filterMap LinkEvent.failure? = (call.failure? c).toList ∧
      ∀ e, call.failure? c = some e → c.TornDown e (c.call call) := by
  intro start run
  refine ⟨consistent_of_closed settings readTimeoutMs pacing run, ?_⟩
  intro front call back _ c
  have horderly := ((settled_closed settings readTimeoutMs pacing).after front).orderly call
  exact ⟨horderly.errors_eq, horderly.tornDown⟩

end Connection

end CabinetBus
