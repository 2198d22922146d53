-- SUMMARY: What each operation of a link reports to its owner, and what that says of the link.
import CabinetBus.Link.Connection

/-!
# Reports of a link

The events on a link are calls on the port and reports to the owner. What an operation
does is told by its reports: each operation is one of a few cases, and the calls on the
port never matter to the owner. The reports of a link also say whether it is up, since
only a link that is down connects, and only one that is up disconnects, reads or writes.
-/

namespace CabinetBus

/-! ## Reports -/

namespace LinkEvent

/-- Whether an event is told to the owner. The others are calls on the port. -/
def isReport : LinkEvent → Bool
  | .connect _ | .disconnect _ | .error .. | .wrote .. | .read .. => true
  | .opening .. | .portTimeout _ | .portWrite _ | .portWriteError | .portFlush => false

/-- The events that are told to the owner, in order. -/
def reports (events : List LinkEvent) : List LinkEvent := events.filter isReport

theorem reports_append (front back : List LinkEvent) :
    reports (front ++ back) = reports front ++ reports back := List.filter_append front back

/-- What is read off the reports alone is read off all events alike. -/
theorem filterMap_reports {β : Type} {f : LinkEvent → Option β}
    (h : ∀ event, event.isReport = false → f event = none) (events : List LinkEvent) :
    (reports events).filterMap f = events.filterMap f := by
  rw [reports, List.filterMap_filter]
  congr 1
  funext event
  cases hreport : event.isReport with
  | true => rfl
  | false => exact (h event hreport).symm

end LinkEvent

open LinkEvent (reports)

/-! ## Operations -/

namespace Connection

theorem reports_writeAll (data : Bytes) (answers : List WriteAnswer) :
    reports (writeAll data answers).1 = [] := by
  fun_induction writeAll data answers with
  | case1 | case2 | case3 | case6 => rfl
  | case4 data count answers hdata accepted hsome events result hrest ih =>
      rw [hrest] at ih
      exact ih
  | case5 data e answers hdata hinterrupted events result hrest ih =>
      rw [hrest] at ih
      exact ih

/-- A write to the port is no report, whatever comes of it. -/
theorem reports_portWrite (data : Bytes) (script : WriteScript) :
    reports (portWrite data script).1 = [] := by
  have hall := reports_writeAll data script.answers
  unfold portWrite
  split
  · rename_i events e hevents
    rwa [hevents] at hall
  · rename_i events hevents
    rw [hevents] at hall
    rw [LinkEvent.reports_append, hall]
    rfl

/-- A link that is up needs no opener; for one that is down the pacing decides. -/
theorem begin_cases (c : Connection) :
    (c.connected = true ∧ c.begin = (.alreadyConnected, c)) ∨
    (c.connected = false ∧ ∃ pacing, c.begin = (.declined, { c with pacing })) ∨
    (c.connected = false ∧ ∃ pacing,
      c.begin = (.opening, { c with pacing, connecting := true })) := by
  unfold begin
  split
  · rename_i hup
    exact .inl ⟨hup, rfl⟩
  · rename_i hdown
    rw [Bool.not_eq_true] at hdown
    dsimp only
    split
    · exact .inr (.inr ⟨hdown, _, rfl⟩)
    · exact .inr (.inl ⟨hdown, _, rfl⟩)

/-- An attempt to open the port ends in one of two ways. -/
theorem complete_cases (c : Connection) (opener : Opener) :
    ((c.openPort opener).1 = .ok () ∧
      reports (c.complete opener).events = [.connect .connected] ∧
      (c.complete opener).value = true ∧
      (c.complete opener).link =
        { c with hasReader := true, hasWriter := true, connected := true, connecting := false,
                 pacing := c.pacing.reset }) ∨
    ∃ e, (c.openPort opener).1 = .error e ∧
      reports (c.complete opener).events =
        [.error e (c.complete opener).link.state] ∧
      (c.complete opener).value = false ∧
      (c.complete opener).link = { c with connecting := false } := by
  have hasked : reports (c.openPort opener).2 = [] := by
    unfold openPort
    split
    · rfl
    · dsimp only
      split
      · rfl
      · split <;> rfl
  unfold complete
  cases hport : c.openPort opener with
  | mk result events =>
      rw [hport] at hasked
      cases result with
      | ok =>
          refine .inl ⟨rfl, ?_, rfl, rfl⟩
          rw [LinkEvent.reports_append, hasked]
          rfl
      | error e =>
          refine .inr ⟨e, rfl, ?_, rfl, rfl⟩
          rw [LinkEvent.reports_append, hasked]
          rfl

/-- A read finds no bytes, or some, or it fails and takes the link down. -/
theorem read_cases (c : Connection) (size : Nat) (script : ReadScript) :
    let step := c.read size script
    (reports step.events = [] ∧ step.value = [] ∧ step.link = c) ∨
    (c.hasReader = true ∧ reports step.events = [.read step.value c.state] ∧
      step.value ≠ [] ∧ step.value.length ≤ size ∧ step.link = c) ∨
    (c.hasReader = true ∧ step.value = [] ∧ step.link = c.disconnect.link ∧ ∃ e,
      reports step.events =
        reports c.disconnect.events ++ [.error (.io e) c.disconnect.link.state]) := by
  unfold read
  by_cases hreader : c.hasReader = true
  · rw [if_pos hreader]
    dsimp only
    split
    · exact .inl ⟨rfl, rfl, rfl⟩
    · rename_i data hdata hread
      refine .inr (.inl ⟨hreader, rfl, hdata, ?_, rfl⟩)
      unfold portRead at hread
      split at hread
      · cases hread
      · cases hanswer : script.answer with
        | error e =>
            rw [hanswer] at hread
            cases hread
        | ok bytes =>
            rw [hanswer] at hread
            cases hread
            exact List.length_take_le _ _
    · rename_i e hread
      split
      · exact .inl ⟨rfl, rfl, rfl⟩
      · refine .inr (.inr ⟨hreader, rfl, rfl, e, ?_⟩)
        exact LinkEvent.reports_append _ _
  · rw [if_neg hreader]
    exact .inl ⟨rfl, rfl, rfl⟩

/-- A write drains the message, or it fails and takes the link down, or there is no link. -/
theorem write_cases (c : Connection) (data : Bytes) (script : WriteScript) :
    let step := c.write data script
    (c.hasWriter = true ∧ reports step.events = [.wrote data c.state] ∧
      step.value = .ok () ∧ step.link = c) ∨
    (c.hasWriter = true ∧ step.link = c.disconnect.link ∧ ∃ e, step.value = .error (.io e) ∧
      reports step.events =
        reports c.disconnect.events ++ [.error (.io e) c.disconnect.link.state]) ∨
    (c.hasWriter = false ∧ reports step.events = [.error .notConnected c.state] ∧
      step.value = .error .notConnected ∧ step.link = c) := by
  have hcalls := reports_portWrite data script
  unfold write
  by_cases hwriter : c.hasWriter = true
  · rw [if_pos hwriter]
    dsimp only
    split
    · rename_i events hport
      rw [hport] at hcalls
      refine .inl ⟨hwriter, ?_, rfl, rfl⟩
      rw [LinkEvent.reports_append, hcalls]
      rfl
    · rename_i events e hport
      rw [hport] at hcalls
      refine .inr (.inl ⟨hwriter, rfl, e, rfl, ?_⟩)
      rw [LinkEvent.reports_append, hcalls]
      exact LinkEvent.reports_append _ _
  · rw [if_neg hwriter]
    exact .inr (.inr ⟨Bool.eq_false_iff.mpr hwriter, rfl, rfl, rfl⟩)

end Connection

/-! ## Following the link -/

namespace LinkEvent

/-- Whether the link is up after an event, if the event can happen then. Only a link that is
down connects, and only one that is up disconnects, writes or reads. -/
def follow (up : Bool) : LinkEvent → Option Bool
  | .connect _ => if up then none else some true
  | .disconnect _ => if up then some false else none
  | .wrote .. | .read .. => if up then some true else none
  | .error .. | .opening .. | .portTimeout _ | .portWrite _ | .portWriteError | .portFlush => some up

/-- Whether the link is up after events in order, if they can happen so. -/
def followAll (up : Bool) (events : List LinkEvent) : Option Bool := events.foldlM follow up

theorem followAll_append (up : Bool) (front back : List LinkEvent) :
    followAll up (front ++ back) = (followAll up front).bind (followAll · back) :=
  List.foldlM_append

theorem followAll_cons (up : Bool) (event : LinkEvent) (rest : List LinkEvent) :
    followAll up (event :: rest) = (event.follow up).bind (followAll · rest) := rfl

/-- Calls on the port say nothing of the link. -/
theorem followAll_reports (up : Bool) (events : List LinkEvent) :
    followAll up (reports events) = followAll up events := by
  induction events generalizing up with
  | nil => rfl
  | cons event rest ih =>
      cases event with
      | connect | disconnect | wrote | read =>
          exact congrArg (Option.bind (follow up _)) (funext ih)
      | error | opening | portTimeout | portWrite | portWriteError | portFlush => exact ih up

end LinkEvent

open LinkEvent (followAll)

namespace Connection

/-- The two handles are held together, and held exactly while the link is up. -/
structure Paired (c : Connection) : Prop where
  hasReader_eq : c.hasReader = c.connected
  hasWriter_eq : c.hasWriter = c.connected

theorem paired_closed (settings : SerialSettings) (readTimeoutMs : UInt64) (pacing : Pacing) :
    (closed settings readTimeoutMs pacing).Paired := ⟨rfl, rfl⟩

/-- The events of a step on a link tell whether the link is up behind it. -/
structure Tells {α : Type} (c : Connection) (step : LinkStep α) : Prop where
  paired : step.link.Paired
  followAll_eq : followAll c.connected step.events = some step.link.connected

theorem tells_of_reports {α : Type} {c : Connection} {step : LinkStep α} (h : step.link.Paired)
    (hreports : followAll c.connected (reports step.events) = some step.link.connected) :
    c.Tells step := ⟨h, by rwa [LinkEvent.followAll_reports] at hreports⟩

theorem Paired.disconnect {c : Connection} (h : c.Paired) : c.Tells c.disconnect := by
  unfold Connection.disconnect
  cases hup : c.connected with
  | true => exact ⟨⟨rfl, rfl⟩, by rw [hup]; rfl⟩
  | false => exact ⟨h, rfl⟩

theorem connected_disconnect (c : Connection) : c.disconnect.link.connected = false := by
  unfold disconnect
  split
  · rfl
  · rename_i hdown
    exact Bool.eq_false_iff.mpr hdown

/-- Neither a read nor a write brings a link up. -/
theorem connected_read_of_down {c : Connection} (h : c.connected = false) (size : Nat)
    (script : ReadScript) : (c.read size script).link.connected = false := by
  rcases c.read_cases size script with ⟨_, _, hlink⟩ | ⟨_, _, _, _, hlink⟩ | ⟨_, _, hlink, _⟩
  · rwa [hlink]
  · rwa [hlink]
  · rw [hlink]
    exact c.connected_disconnect

theorem connected_write_of_down {c : Connection} (h : c.connected = false) (data : Bytes)
    (script : WriteScript) : (c.write data script).link.connected = false := by
  rcases c.write_cases data script with ⟨_, _, _, hlink⟩ | ⟨_, hlink, _⟩ | ⟨_, _, _, hlink⟩
  · rwa [hlink]
  · rw [hlink]
    exact c.connected_disconnect
  · rwa [hlink]

/-- An error behind a disconnect leaves the link down. -/
theorem Paired.followAll_fail {c : Connection} (h : c.Paired) (e : LinkError) (state : LinkState) :
    followAll c.connected (reports c.disconnect.events ++ [.error e state]) =
      some c.disconnect.link.connected := by
  rw [LinkEvent.followAll_append, LinkEvent.followAll_reports, h.disconnect.followAll_eq]
  rfl

theorem Paired.complete {c : Connection} (h : c.Paired) (hdown : c.connected = false)
    (opener : Opener) : c.Tells (c.complete opener) := by
  rcases c.complete_cases opener with ⟨_, hreports, _, hlink⟩ | ⟨e, _, hreports, _, hlink⟩
  · refine tells_of_reports ?_ ?_
    · rw [hlink]
      exact ⟨rfl, rfl⟩
    · rw [hreports, hlink, hdown]
      rfl
  · refine tells_of_reports ?_ ?_
    · rw [hlink]
      exact ⟨h.hasReader_eq, h.hasWriter_eq⟩
    · rw [hreports, hlink]
      rfl

theorem Paired.read {c : Connection} (h : c.Paired) (size : Nat) (script : ReadScript) :
    c.Tells (c.read size script) := by
  rcases c.read_cases size script with ⟨hreports, _, hlink⟩ |
    ⟨hreader, hreports, _, _, hlink⟩ | ⟨_, _, hlink, e, hreports⟩
  · refine tells_of_reports (by rwa [hlink]) ?_
    rw [hreports, hlink]
    rfl
  · refine tells_of_reports (by rwa [hlink]) ?_
    rw [hreports, hlink, ← h.hasReader_eq, hreader]
    rfl
  · refine tells_of_reports (by rw [hlink]; exact h.disconnect.paired) ?_
    rw [hreports, hlink]
    exact h.followAll_fail _ _

theorem Paired.write {c : Connection} (h : c.Paired) (data : Bytes) (script : WriteScript) :
    c.Tells (c.write data script) := by
  rcases c.write_cases data script with ⟨hwriter, hreports, _, hlink⟩ |
    ⟨_, hlink, e, _, hreports⟩ | ⟨_, hreports, _, hlink⟩
  · refine tells_of_reports (by rwa [hlink]) ?_
    rw [hreports, hlink, ← h.hasWriter_eq, hwriter]
    rfl
  · refine tells_of_reports (by rw [hlink]; exact h.disconnect.paired) ?_
    rw [hreports, hlink]
    exact h.followAll_fail _ _
  · refine tells_of_reports (by rwa [hlink]) ?_
    rw [hreports, hlink]
    rfl

end Connection

end CabinetBus
