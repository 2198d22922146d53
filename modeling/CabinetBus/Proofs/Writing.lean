-- SUMMARY: A write on a link is taken whole and drained, or it fails and takes the link down.
import CabinetBus.Proofs.LinkRuns

/-!
# Writing all or failing

A port takes a write in pieces of any size, and may interrupt or refuse any call. What it has
taken is always a prefix of the message. The write succeeds exactly if that is all of it and the
port is drained as well; otherwise the first refusal that the message runs into is what the owner is
told of, behind a disconnect.
-/

namespace CabinetBus

open LinkEvent (reports)

/-! ## What a port takes and refuses -/

namespace LinkEvent

def received? : LinkEvent → Option Bytes
  | .portWrite accepted => some accepted
  | _ => none

/-- The bytes that a port has taken, in order. -/
def received (events : List LinkEvent) : Bytes := (events.filterMap received?).flatten

theorem received_append (front back : List LinkEvent) :
    received (front ++ back) = received front ++ received back := by
  rw [received, List.filterMap_append, List.flatten_append]
  rfl

theorem received_nil : received [] = [] := rfl

theorem received_portWrite (accepted : Bytes) (rest : List LinkEvent) :
    received (.portWrite accepted :: rest) = accepted ++ received rest := rfl

end LinkEvent

open LinkEvent (received)

namespace WriteAnswer

/-- The failure that an answer of the port is: to take nothing is one, to be interrupted is none. -/
def failure? : WriteAnswer → Option IoError
  | .accept 0 => some Connection.writeZero
  | .accept _ => none
  | .fail e => if e.kind = .interrupted then none else some e

/-- How many bytes are taken at most. -/
def room : WriteAnswer → Nat
  | .accept count => count
  | .fail _ => 0

/-- How many bytes are taken at most before the first failure. -/
def roomOf : List WriteAnswer → Nat
  | [] => 0
  | answer :: rest => if answer.failure?.isSome then 0 else answer.room + roomOf rest

/-- The first failure that a message runs into, if the port does not take all of it before. -/
def failureOf? (data : Bytes) (answers : List WriteAnswer) : Option IoError :=
  if roomOf answers < data.length then answers.findSome? failure? else none

/-- What the port takes of a message, and what comes of it. -/
def outcome (data : Bytes) (answers : List WriteAnswer) : Bytes × Except IoError Unit :=
  match failureOf? data answers with
  | none => (data, .ok ())
  | some e => (data.take (roomOf answers), .error e)

variable {answer : WriteAnswer} {e : IoError}

theorem outcome_nil_left (answers : List WriteAnswer) : outcome [] answers = ([], .ok ()) := rfl

theorem outcome_nil_right (data : Bytes) : outcome data [] = (data, .ok ()) := by
  rw [outcome, failureOf?, List.findSome?_nil, ite_self]

/-- A failure ends a message of which anything is left. -/
theorem outcome_cons_of_failure (h : answer.failure? = some e) {data : Bytes} (hdata : data ≠ [])
    (answers : List WriteAnswer) : outcome data (answer :: answers) = ([], .error e) := by
  have hroom : roomOf (answer :: answers) = 0 := by
    rw [roomOf, h]
    rfl
  have hfailure : failureOf? data (answer :: answers) = some e := by
    rw [failureOf?, hroom, if_pos (List.length_pos_iff.mpr hdata), List.findSome?_cons, h]
  simp only [outcome, hfailure, hroom, List.take_zero]

/-- An answer that is no failure takes bytes off the front, and the others get what is left. -/
theorem outcome_cons_of_none (h : answer.failure? = none) (data : Bytes)
    (answers : List WriteAnswer) :
    outcome data (answer :: answers) =
      (data.take answer.room ++ (outcome (data.drop answer.room) answers).1,
        (outcome (data.drop answer.room) answers).2) := by
  have hroom : roomOf (answer :: answers) = answer.room + roomOf answers := by
    rw [roomOf, h]
    rfl
  have hlt : answer.room + roomOf answers < data.length ↔
      roomOf answers < (data.drop answer.room).length := by
    rw [List.length_drop]
    omega
  have hfailure : failureOf? data (answer :: answers) =
      failureOf? (data.drop answer.room) answers := by
    simp only [failureOf?, hroom, hlt, List.findSome?_cons, h]
  rw [outcome, outcome, hfailure, hroom]
  cases failureOf? (data.drop answer.room) answers with
  | none => simp only [List.take_append_drop]
  | some e => simp only [List.take_add]

theorem outcome_prefix (data : Bytes) (answers : List WriteAnswer) :
    (outcome data answers).1 <+: data := by
  unfold outcome
  split
  · exact List.prefix_rfl
  · exact List.take_prefix _ _

/-- The port takes the whole message exactly if it runs into no failure. -/
theorem outcome_eq_self_iff {data : Bytes} {answers : List WriteAnswer} :
    (outcome data answers).1 = data ↔ failureOf? data answers = none := by
  unfold outcome
  cases h : failureOf? data answers with
  | none => exact ⟨fun _ => rfl, fun _ => rfl⟩
  | some e =>
      have hlt : roomOf answers < data.length := by
        unfold failureOf? at h
        split at h
        · assumption
        · cases h
      have hne : data.take (roomOf answers) ≠ data := by
        intro heq
        have hlength := congrArg List.length heq
        rw [List.length_take_of_le (Nat.le_of_lt hlt)] at hlength
        exact Nat.ne_of_lt hlt hlength
      exact ⟨fun heq => absurd heq hne, nofun⟩

end WriteAnswer

/-- Why a message is not written whole and drained, if it is not. -/
def WriteScript.failure? (script : WriteScript) (data : Bytes) : Option IoError :=
  WriteAnswer.failureOf? data script.answers <|> script.flushError

theorem WriteScript.failure?_eq_none_iff {script : WriteScript} {data : Bytes} :
    script.failure? data = none ↔
      WriteAnswer.failureOf? data script.answers = none ∧ script.flushError = none := by
  rw [failure?]
  cases WriteAnswer.failureOf? data script.answers <;> simp

/-! ## Writing to the port -/

namespace Connection

open WriteAnswer (outcome)

theorem writeAll_eq (data : Bytes) (answers : List WriteAnswer) :
    (received (writeAll data answers).1, (writeAll data answers).2) = outcome data answers := by
  fun_induction writeAll data answers with
  | case1 answers => exact (WriteAnswer.outcome_nil_left answers).symm
  | case2 data hdata =>
      rw [WriteAnswer.outcome_nil_right, LinkEvent.received_portWrite, LinkEvent.received_nil,
        List.append_nil]
  | case3 data count answers hdata accepted hnone =>
      have hcount : count = 0 :=
        (List.take_eq_nil_iff.mp (List.isEmpty_iff.mp hnone)).resolve_right hdata
      have hfailure : (WriteAnswer.accept count).failure? = some writeZero := by rw [hcount]; rfl
      rw [WriteAnswer.outcome_cons_of_failure hfailure hdata]
      rfl
  | case4 data count answers hdata accepted hsome events result hrest ih =>
      have hfailure : (WriteAnswer.accept count).failure? = none := by
        cases count with
        | zero => exact absurd rfl hsome
        | succ count => rfl
      rw [hrest] at ih
      rw [WriteAnswer.outcome_cons_of_none hfailure, WriteAnswer.room, ← ih]
      rfl
  | case5 data e answers hdata hinterrupted events result hrest ih =>
      have hfailure : (WriteAnswer.fail e).failure? = none := if_pos hinterrupted
      rw [hrest] at ih
      rw [WriteAnswer.outcome_cons_of_none hfailure, WriteAnswer.room, List.drop_zero, ← ih]
      rfl
  | case6 data e answers hdata hinterrupted =>
      have hfailure : (WriteAnswer.fail e).failure? = some e := if_neg hinterrupted
      rw [WriteAnswer.outcome_cons_of_failure hfailure hdata]
      rfl

/-- Draining comes behind the last byte, and only if all were taken. -/
theorem portWrite_eq (data : Bytes) (script : WriteScript) :
    received (portWrite data script).1 = (outcome data script.answers).1 ∧
      (portWrite data script).2 =
        match script.failure? data with
        | none => .ok ()
        | some e => .error e := by
  have hreceived : received (writeAll data script.answers).1 = (outcome data script.answers).1 :=
    congrArg Prod.fst (writeAll_eq data script.answers)
  have hresult : (writeAll data script.answers).2 = (outcome data script.answers).2 :=
    congrArg Prod.snd (writeAll_eq data script.answers)
  unfold portWrite WriteScript.failure?
  cases hwrite : writeAll data script.answers with
  | mk events result =>
      rw [hwrite] at hreceived hresult
      cases hfailure : WriteAnswer.failureOf? data script.answers with
      | some e =>
          simp only [outcome, hfailure] at hresult
          cases hresult
          exact ⟨hreceived, rfl⟩
      | none =>
          simp only [outcome, hfailure] at hresult
          cases hresult
          refine ⟨?_, ?_⟩
          · rw [← hreceived, LinkEvent.received_append]
            exact List.append_nil _
          · cases script.flushError <;> rfl

/-! ## Writing on a link -/

/-- A write on a link that is up ends in one of two ways, and the port has taken the same as of
any write to it. -/
theorem Settled.write_cases_of_up {c : Connection} (hc : c.Settled) (hup : c.connected = true)
    (data : Bytes) (script : WriteScript) :
    received (c.write data script).events = (outcome data script.answers).1 ∧
      match script.failure? data with
      | none =>
          (c.write data script).value = .ok () ∧
            reports (c.write data script).events = [.wrote data .connected] ∧
            (c.write data script).link = c
      | some e =>
          (c.write data script).value = .error (.io e) ∧
            reports (c.write data script).events =
              [.disconnect .disconnected, .error (.io e) .disconnected] ∧
            (c.write data script).link = c.disconnect.link := by
  have hstate := hc.state_eq_connected_iff.mpr hup
  have hdown := hc.events_disconnect
  obtain ⟨hreceived, hresult⟩ := portWrite_eq data script
  have hcalls := reports_portWrite data script
  rw [if_pos hstate] at hdown
  unfold Connection.write
  rw [if_pos (hc.hasWriter_eq.trans hup)]
  cases hport : portWrite data script with
  | mk events result =>
      rw [hport] at hreceived hresult hcalls
      cases hfailure : script.failure? data with
      | none =>
          rw [hfailure] at hresult
          cases hresult
          refine ⟨?_, rfl, ?_, rfl⟩
          · rw [← hreceived, LinkEvent.received_append]
            exact List.append_nil _
          · rw [LinkEvent.reports_append, hcalls, hstate]
            rfl
      | some e =>
          rw [hfailure] at hresult
          cases hresult
          dsimp only [fail]
          rw [hdown, hc.state_disconnect]
          refine ⟨?_, rfl, ?_, rfl⟩
          · rw [← hreceived, LinkEvent.received_append]
            exact List.append_nil _
          · rw [LinkEvent.reports_append, hcalls]
            rfl

/-- A write on a link that is up, with any answers of the port. The port takes a prefix of the
message. If that is all of it and the port is drained, the owner is told so once and the link stays
as it is. Otherwise the first failure is what the write returns and what the owner is told of,
behind a disconnect, and both handles are gone. -/
theorem write_takes_all_or_fails (settings : SerialSettings) (readTimeoutMs : UInt64)
    (pacing : Pacing) (calls : List LinkCall) (data : Bytes) (script : WriteScript)
    (hup : ((closed settings readTimeoutMs pacing).after calls).connected = true) :
    let c := (closed settings readTimeoutMs pacing).after calls
    let step := c.write data script
    received step.events <+: data ∧
    (step.value = .ok () ↔ received step.events = data ∧ script.flushError = none) ∧
    match script.failure? data with
    | none =>
        step.value = .ok () ∧ reports step.events = [.wrote data .connected] ∧ step.link = c
    | some e =>
        step.value = .error (.io e) ∧
          reports step.events = [.disconnect .disconnected, .error (.io e) .disconnected] ∧
          step.link.state = .disconnected ∧
          step.link.hasReader = false ∧ step.link.hasWriter = false := by
  intro c step
  have hc : c.Settled := (settled_closed settings readTimeoutMs pacing).after calls
  obtain ⟨hreceived, hcase⟩ := hc.write_cases_of_up hup data script
  have hdown := hc.disconnect
  refine ⟨hreceived ▸ WriteAnswer.outcome_prefix data script.answers, ?_, ?_⟩
  · rw [show received step.events = _ from hreceived, WriteAnswer.outcome_eq_self_iff,
      ← WriteScript.failure?_eq_none_iff]
    cases hfailure : script.failure? data with
    | none =>
        rw [hfailure] at hcase
        exact iff_of_true hcase.1 rfl
    | some e =>
        rw [hfailure] at hcase
        rw [show step.value = _ from hcase.1]
        exact iff_of_false nofun nofun
  · cases hfailure : script.failure? data with
    | none =>
        rw [hfailure] at hcase
        exact hcase
    | some e =>
        rw [hfailure] at hcase
        obtain ⟨hvalue, hreports, hlink⟩ := hcase
        refine ⟨hvalue, hreports, ?_, ?_, ?_⟩
        · rw [show step.link = _ from hlink, hc.state_disconnect]
        · rw [show step.link = _ from hlink, hdown.hasReader_eq, connected_disconnect]
        · rw [show step.link = _ from hlink, hdown.hasWriter_eq, connected_disconnect]

/-- A message that is taken in two pieces, around an interruption, and then refused. -/
theorem write_takes_all_or_fails_refused :
    let opened : List LinkCall := [.connect (.scripted .success)]
    let c := (closed .default 100 (.ofEvery 3)).after opened
    let gone : IoError := ⟨.brokenPipe, "gone"⟩
    let step := c.write [1, 2, 3, 4]
      ⟨[.accept 2, .fail ⟨.interrupted, ""⟩, .accept 1, .fail gone], none⟩
    c.connected = true ∧ received step.events <+: [1, 2, 3, 4] ∧
      step.value = .error (.io gone) ∧
      reports step.events = [.disconnect .disconnected, .error (.io gone) .disconnected] := by
  intro opened c gone step
  have hup : c.connected = true := by decide
  obtain ⟨htaken, _, hvalue, hreports, _⟩ := write_takes_all_or_fails .default 100 (.ofEvery 3)
    opened [1, 2, 3, 4] ⟨[.accept 2, .fail ⟨.interrupted, ""⟩, .accept 1, .fail gone], none⟩ hup
  exact ⟨hup, htaken, hvalue, hreports⟩

end Connection

end CabinetBus
