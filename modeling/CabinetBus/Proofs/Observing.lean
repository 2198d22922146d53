-- SUMMARY: What a service makes of the events on its link: counts, audit entries and notices.
import CabinetBus.Service.Basic

/-!
# Observing the link

Each event on the link bears on three things, and on each by itself: one counter may
go up, one entry may be put on the audit trail, and the handler may be told of one
failure. Nothing else of a service changes when it takes over a step on its link.
-/

namespace CabinetBus

/-! ## Single events -/

namespace LinkEvent

/-- The counter that an event raises. -/
def counter? : LinkEvent → Option Counter
  | .connect _ => some .connects
  | .disconnect _ => some .disconnects
  | _ => none

/-- The entry that an event puts on the audit trail. -/
def entry? : LinkEvent → Option AuditEntry
  | .error e _ => some ⟨.error, e.message⟩
  | .wrote data _ => some ⟨.write, Bytes.toHex data⟩
  | .read data _ => some ⟨.read, Bytes.toHex data⟩
  | _ => none

/-- The failure that the handler is told of. -/
def failure? : LinkEvent → Option LinkError
  | .error e _ => some e
  | _ => none

end LinkEvent

/-! ## Counts -/

/-- Counts one event. -/
def Tally.noteOne (t : Tally) (event : LinkEvent) : Tally :=
  match event.counter? with
  | none => t
  | some counter => t.increment counter

/-- Counts events in order. -/
def Tally.note (t : Tally) (events : List LinkEvent) : Tally := events.foldl noteOne t

theorem Tally.count_noteOne {t : Tally} {event : LinkEvent} {c : Counter}
    (hconnects : c ≠ .connects) (hdisconnects : c ≠ .disconnects) :
    (t.noteOne event).count c = t.count c := by
  cases event with
  | connect => exact (count_add ..).trans (if_neg hconnects)
  | disconnect => exact (count_add ..).trans (if_neg hdisconnects)
  | opening | portTimeout | portWrite | portWriteError | portFlush | error | wrote | read => rfl

/-- Events on the link move the counters of connects and disconnects only. -/
theorem Tally.count_note {t : Tally} {events : List LinkEvent} {c : Counter}
    (hconnects : c ≠ .connects) (hdisconnects : c ≠ .disconnects) :
    (t.note events).count c = t.count c := by
  induction events generalizing t with
  | nil => rfl
  | cons event rest ih => exact ih.trans (count_noteOne hconnects hdisconnects)

/-! ## Taking over a step -/

namespace Service

variable {η : Type}

theorem observe_eq (s : Service η) (event : LinkEvent) :
    s.observe event =
      ⟨{ s with tally := s.tally.noteOne event, audit := s.audit ++ event.entry?.toList },
        event.failure?.toList.map fun e => (s.handler, .failure e), []⟩ := by
  cases event with
  | error | wrote | read => rfl
  | connect | disconnect | opening | portTimeout | portWrite | portWriteError | portFlush =>
      simp only [LinkEvent.entry?, Option.toList_none, List.append_nil]
      rfl

theorem observeAll_eq (s : Service η) (events : List LinkEvent) :
    s.observeAll events =
      ⟨{ s with
          tally := s.tally.note events
          audit := s.audit ++ events.filterMap LinkEvent.entry? },
        (events.filterMap LinkEvent.failure?).map fun e => (s.handler, .failure e), []⟩ := by
  induction events generalizing s with
  | nil =>
      rw [List.filterMap_nil, List.append_nil]
      rfl
  | cons event rest ih =>
      have hsplit {β : Type} (f : LinkEvent → Option β) :
          (event :: rest).filterMap f = (f event).toList ++ rest.filterMap f := by
        rw [List.filterMap_cons]
        cases f event <;> rfl
      rw [observeAll, observe_eq, hsplit, hsplit, List.map_append, ← List.append_assoc]
      simp only [ServiceStep.andThen, ih, List.append_nil]
      rfl

/-- A service that takes over a step on its link has the link of that step, and has taken
note of its events. -/
theorem absorb_eq {α : Type} (s : Service η) (step : LinkStep α) :
    s.absorb step =
      ⟨{ s with
          link := step.link
          tally := s.tally.note step.events
          audit := s.audit ++ step.events.filterMap LinkEvent.entry? },
        (step.events.filterMap LinkEvent.failure?).map fun e => (s.handler, .failure e),
        step.events⟩ := by
  rw [absorb, observeAll_eq]

end Service

end CabinetBus
