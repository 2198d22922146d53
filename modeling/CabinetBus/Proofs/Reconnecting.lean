-- SUMMARY: Which connects ask the opener for a port, by the connects since the link last came up.
import CabinetBus.Proofs.LinkRuns

/-!
# Pacing of connects

The connects that are made while a link is down are counted from one since it last came up.
The pacing lets the first of them ask for a port and then every `every`-th after it, as long
as its 32-bit count does not start over. Nothing else moves the count, and only an opened port
sets it back.
-/

namespace CabinetBus

/-! ## Counting -/

/-- Whether an event is that an opener is asked for a port. -/
def LinkEvent.isOpening : LinkEvent → Bool
  | .opening .. => true
  | _ => false

def LinkCall.isConnect : LinkCall → Bool
  | .connect _ => true
  | _ => false

/-- The verdict on a call, by the number of calls counted before it. -/
theorem Pacing.attempt_fst_eq_true_iff {p : Pacing} {count : Nat}
    (h : p.calls = UInt32.ofNat count) :
    p.attempt.1 = true ↔ p.every ≤ 1 ∨ (count + 1) % UInt32.size % p.every.toNat = 1 := by
  by_cases hevery : p.every ≤ 1
  · simp [attempt, hevery]
  · have hcount : (p.calls + 1).toNat = (count + 1) % UInt32.size := by
      simp [h, UInt32.toNat_add, UInt32.size]
    rw [attempt, if_neg hevery, beq_iff_eq, ← UInt32.toNat_inj, UInt32.toNat_mod, hcount,
      or_iff_right hevery]
    rfl

/-- A call that is counted adds one, where calls are counted at all. -/
theorem Pacing.attempt_snd_eq {p : Pacing} {count : Nat}
    (h : p.every ≤ 1 ∨ p.calls = UInt32.ofNat count) :
    p.attempt.2.every = p.every ∧
      (p.every ≤ 1 ∨ p.attempt.2.calls = UInt32.ofNat (count + 1)) := by
  by_cases hevery : p.every ≤ 1
  · exact ⟨by simp [attempt, hevery], .inl hevery⟩
  · rw [attempt_snd hevery]
    refine ⟨rfl, .inr ?_⟩
    rw [h.resolve_left hevery, UInt32.ofNat_add]
    rfl

namespace Connection

/-- Whether a connect asks the opener for a port. -/
def Asks (c : Connection) : Prop := c.begin.1 = .opening

instance (c : Connection) : Decidable c.Asks := inferInstanceAs (Decidable (c.begin.1 = .opening))

/-- The connects made on a link while it was down, after a call. The count starts anew with an
opened port. -/
def triesAfter (c : Connection) (count : Nat) : LinkCall → Nat
  | .connect opener =>
      if c.connected then count else if (c.connect opener).value then 0 else count + 1
  | _ => count

/-- The connects made on a link while it was down, since the last of the calls that opened the
port, or besides `count` earlier ones if none did. -/
def triesFrom (c : Connection) (count : Nat) : List LinkCall → Nat
  | [] => count
  | call :: rest => (c.call call).link.triesFrom (c.triesAfter count call) rest

/-- The connects made while the link was down, since it was made or last came up. -/
def tries (c : Connection) (calls : List LinkCall) : Nat := c.triesFrom 0 calls

theorem triesFrom_append (c : Connection) (count : Nat) (front back : List LinkCall) :
    c.triesFrom count (front ++ back) =
      (c.after front).triesFrom (c.triesFrom count front) back := by
  induction front generalizing c count with
  | nil => rfl
  | cons call rest ih => exact ih (c.call call).link (c.triesAfter count call)

theorem tries_concat (c : Connection) (calls : List LinkCall) (call : LinkCall) :
    c.tries (calls ++ [call]) = (c.after calls).triesAfter (c.tries calls) call :=
  triesFrom_append c 0 calls [call]

variable {c : Connection}

/-- Only a connect on a link that is down is counted. -/
theorem triesAfter_of_kept {call : LinkCall} (h : c.connected = true ∨ call.isConnect = false)
    (count : Nat) : c.triesAfter count call = count := by
  cases call with
  | connect opener => exact if_pos (h.resolve_right (by simp [LinkCall.isConnect]))
  | read | write | disconnect => rfl

theorem triesAfter_connect (hdown : c.connected = false) (count : Nat) (opener : Opener) :
    c.triesAfter count (.connect opener) = if (c.connect opener).value then 0 else count + 1 :=
  if_neg (Bool.eq_false_iff.mp hdown)

theorem triesFrom_of_no_connect {calls : List LinkCall}
    (h : ∀ call ∈ calls, call.isConnect = false) (count : Nat) :
    c.triesFrom count calls = count := by
  induction calls generalizing c with
  | nil => rfl
  | cons call rest ih =>
      obtain ⟨hcall, hrest⟩ := List.forall_mem_cons.mp h
      rw [triesFrom, triesAfter_of_kept (.inr hcall), ih hrest]

/-! ## What moves the pacing -/

theorem pacing_disconnect (c : Connection) : c.disconnect.link.pacing = c.pacing := by
  unfold disconnect
  split <;> rfl

/-- Only a connect on a link that is down moves the pacing. -/
theorem pacing_call {call : LinkCall} (h : c.connected = true ∨ call.isConnect = false) :
    (c.call call).link.pacing = c.pacing := by
  cases call with
  | connect opener =>
      have hup : c.connected = true := h.resolve_right (by simp [LinkCall.isConnect])
      rcases c.connect_cases opener with ⟨_, _, hstep⟩ | ⟨hdown, _⟩ | ⟨hdown, _⟩ | ⟨hdown, _⟩
      · simp only [call, hstep]
      all_goals
        rw [hup] at hdown
        cases hdown
  | read size script =>
      rcases c.read_cases size script with ⟨_, _, hlink⟩ | ⟨_, _, _, _, hlink⟩ | ⟨_, _, hlink, _⟩
      · exact congrArg pacing hlink
      · exact congrArg pacing hlink
      · exact (congrArg pacing hlink).trans c.pacing_disconnect
  | write data script =>
      rcases c.write_cases data script with ⟨_, _, _, hlink⟩ | ⟨_, hlink, _⟩ | ⟨_, _, _, hlink⟩
      · exact congrArg pacing hlink
      · exact (congrArg pacing hlink).trans c.pacing_disconnect
      · exact congrArg pacing hlink
  | disconnect => exact c.pacing_disconnect

/-- Only a connect brings up a link that is down. -/
theorem connected_call_of_down {call : LinkCall} (hdown : c.connected = false)
    (hcall : call.isConnect = false) : (c.call call).link.connected = false := by
  cases call with
  | connect opener => cases hcall
  | read size script => exact connected_read_of_down hdown size script
  | write data script => exact connected_write_of_down hdown data script
  | disconnect => exact c.connected_disconnect

/-- The pacing of a link has counted the connects since the link last came up, and there were
none while it is up. -/
structure Paced (every : UInt32) (count : Nat) (c : Connection) : Prop where
  every_eq : c.pacing.every = every
  calls_eq : every ≤ 1 ∨ c.pacing.calls = UInt32.ofNat count
  of_up : c.connected = true → count = 0

theorem paced_closed (settings : SerialSettings) (readTimeoutMs : UInt64) (every : UInt32) :
    (closed settings readTimeoutMs (.ofEvery every)).Paced every 0 where
  every_eq := rfl
  calls_eq := .inr rfl
  of_up := fun _ => rfl

/-- A connect on a link that is down is counted, unless it opens the port. -/
theorem Paced.connect_of_down {every : UInt32} {count : Nat} (h : c.Paced every count)
    (hdown : c.connected = false) (opener : Opener) :
    (c.connect opener).link.Paced every (if (c.connect opener).value then 0 else count + 1) := by
  obtain ⟨hevery, hcalls⟩ := Pacing.attempt_snd_eq (h.every_eq ▸ h.calls_eq)
  rw [h.every_eq] at hevery hcalls
  have hstill {P : Prop} (hup : c.connected = true) : P := by
    rw [hdown] at hup
    cases hup
  rcases c.connect_cases opener with ⟨hup, _⟩ | ⟨_, _, _, hstep⟩ |
    ⟨_, _, _, _, _, hvalue, hlink⟩ | ⟨_, _, _, _, _, _, hvalue, hlink⟩
  · exact hstill hup
  · rw [hstep]
    exact ⟨hevery, hcalls, hstill⟩
  · rw [hlink, hvalue]
    exact ⟨hevery, .inr rfl, fun _ => rfl⟩
  · rw [hlink, hvalue]
    exact ⟨hevery, hcalls, hstill⟩

/-- What moves the pacing moves the count, and a link that is up has none to count. -/
theorem Paced.call {every : UInt32} {count : Nat} (h : c.Paced every count) (call : LinkCall) :
    (c.call call).link.Paced every (c.triesAfter count call) := by
  by_cases hkept : c.connected = true ∨ call.isConnect = false
  · have hpacing := pacing_call hkept
    rw [triesAfter_of_kept hkept]
    refine ⟨by rw [hpacing, h.every_eq], by rw [hpacing]; exact h.calls_eq, fun hup => ?_⟩
    refine h.of_up (Bool.of_not_eq_false fun hdown => ?_)
    have hcall : call.isConnect = false := hkept.resolve_left (by rw [hdown]; decide)
    rw [connected_call_of_down hdown hcall] at hup
    cases hup
  · rw [not_or, Bool.not_eq_true, Bool.not_eq_false] at hkept
    obtain ⟨hdown, hcall⟩ := hkept
    cases call with
    | read | write | disconnect => cases hcall
    | connect opener =>
        rw [triesAfter_connect hdown]
        exact h.connect_of_down hdown opener

theorem Paced.after {every : UInt32} {count : Nat} (h : c.Paced every count)
    (calls : List LinkCall) : (c.after calls).Paced every (c.triesFrom count calls) := by
  induction calls generalizing c count with
  | nil => exact h
  | cons call rest ih => exact ih (h.call call)

/-! ## When the opener is asked -/

theorem asks_iff (hdown : c.connected = false) : c.Asks ↔ c.pacing.attempt.1 = true := by
  rw [Asks, begin, if_neg (Bool.eq_false_iff.mp hdown)]
  cases hpermitted : c.pacing.attempt.1 <;> simp [hpermitted]

/-- The verdict on the next connect, without a bound on the count. -/
theorem Paced.asks_iff {every : UInt32} {count : Nat} (h : c.Paced every count)
    (hdown : c.connected = false) :
    c.Asks ↔ every ≤ 1 ∨ (count + 1) % UInt32.size % every.toNat = 1 := by
  rw [Connection.asks_iff hdown]
  rcases h.calls_eq with hevery | hcalls
  · simp [Pacing.attempt, h.every_eq, hevery]
  · rw [Pacing.attempt_fst_eq_true_iff hcalls, h.every_eq]

/-- An opener that is asked is asked once. -/
theorem countP_isOpening_connect (c : Connection) (script : OpenScript) :
    (c.connect (.scripted script)).events.countP LinkEvent.isOpening = if c.Asks then 1 else 0 := by
  rcases c.begin_cases with ⟨_, hbegin⟩ | ⟨_, pacing, hbegin⟩ | ⟨_, pacing, hbegin⟩
  · simp only [connect, Asks, hbegin]
    rfl
  · simp only [connect, Asks, hbegin]
    rfl
  · obtain ⟨openError, timeoutError, cloneError⟩ := script
    simp only [connect, Asks, hbegin]
    cases openError <;> cases timeoutError <;> cases cloneError <;> rfl

/-- A connect that lets its turn pass by answers no, and nothing happens. -/
theorem connect_of_not_asks (hdown : c.connected = false) (h : ¬c.Asks) (opener : Opener) :
    c.connect opener = ⟨false, { c with pacing := c.pacing.attempt.2 }, []⟩ := by
  rcases c.connect_cases opener with ⟨hup, _⟩ | ⟨_, _, _, hstep⟩ | ⟨_, hasks, _⟩ | ⟨_, hasks, _⟩
  · rw [hdown] at hup
    cases hup
  · exact hstep
  · exact absurd hasks h
  · exact absurd hasks h

/-- An attempt that fails is counted like a connect that was declined. -/
theorem connect_of_failure {opener : Opener} {e : LinkError} (hasks : c.Asks)
    (he : opener.failure? c.settings = some e) :
    c.connected = false ∧ (c.connect opener).value = false ∧
      (c.connect opener).link.pacing = c.pacing.attempt.2 := by
  rcases c.connect_cases opener with ⟨_, hbegin, _⟩ | ⟨_, hbegin, _⟩ | ⟨_, _, _, hnone, _⟩ |
    ⟨hdown, _, _, _, _, _, hvalue, hlink⟩
  · rw [Asks, hbegin] at hasks
    cases hasks
  · rw [Asks, hbegin] at hasks
    cases hasks
  · rw [hnone] at he
    cases he
  · exact ⟨hdown, hvalue, by rw [hlink]⟩

/-- Once an established link is lost, the next connect asks for a port. -/
theorem Paced.asks_of_lost {every : UInt32} {count : Nat} (h : c.Paced every count)
    (hup : c.connected = true) {quiet : List LinkCall}
    (hquiet : ∀ call ∈ quiet, call.isConnect = false) (hdown : (c.after quiet).connected = false) :
    (c.after quiet).Asks := by
  have hpaced := h.after quiet
  rw [triesFrom_of_no_connect hquiet, h.of_up hup] at hpaced
  rw [hpaced.asks_iff hdown]
  by_cases hevery : every ≤ 1
  · exact .inl hevery
  · have hone := Pacing.one_lt_of_not_le (p := .ofEvery every) hevery
    exact .inr (Nat.mod_eq_of_lt hone)

/-- A run of calls on a link that lets one of `every` connects try to open the port. Of the
connects made while the link is down, since it was made or last came up, the `j`-th asks the
opener if `every` is at most one or `j` is one modulo `every`, as long as `j` is a 32-bit number.
One that does not ask answers no and does nothing else. Connects of a link that is up, reads,
writes and disconnects leave the count as it is, and so an established link that was lost is
opened by the very next connect; a failed attempt is counted like a declined one. -/
theorem connects_are_paced (settings : SerialSettings) (readTimeoutMs : UInt64) (every : UInt32)
    (calls : List LinkCall) :
    let start := closed settings readTimeoutMs (.ofEvery every)
    let c := start.after calls
    let j := start.tries calls + 1
    (c.connected = false → j < UInt32.size → (c.Asks ↔ every ≤ 1 ∨ j % every.toNat = 1)) ∧
    (∀ script, (c.connect (.scripted script)).events.countP LinkEvent.isOpening =
      if c.Asks then 1 else 0) ∧
    (∀ opener, c.connected = false → ¬c.Asks →
      c.connect opener = ⟨false, { c with pacing := c.pacing.attempt.2 }, []⟩) ∧
    (∀ call : LinkCall, c.connected = true ∨ call.isConnect = false →
      (c.call call).link.pacing = c.pacing ∧
      start.tries (calls ++ [call]) = start.tries calls) ∧
    (c.connected = true → ∀ quiet : List LinkCall, (∀ call ∈ quiet, call.isConnect = false) →
      (c.after quiet).connected = false → (c.after quiet).Asks) ∧
    (∀ opener e, c.Asks → opener.failure? c.settings = some e →
      (c.connect opener).link.pacing = c.pacing.attempt.2 ∧
      start.tries (calls ++ [.connect opener]) = j) := by
  intro start c j
  have hpaced : c.Paced every (start.tries calls) :=
    (paced_closed settings readTimeoutMs every).after calls
  refine ⟨fun hdown hj => ?_, c.countP_isOpening_connect,
    fun opener hdown hasks => connect_of_not_asks hdown hasks opener, fun call hcall => ?_,
    fun hup quiet hquiet => hpaced.asks_of_lost hup hquiet, fun opener e hasks he => ?_⟩
  · rw [hpaced.asks_iff hdown, Nat.mod_eq_of_lt hj]
  · exact ⟨pacing_call hcall, by rw [tries_concat, triesAfter_of_kept hcall]⟩
  · obtain ⟨hdown, hvalue, hlink⟩ := connect_of_failure hasks he
    refine ⟨hlink, ?_⟩
    rw [tries_concat, triesAfter_connect hdown, hvalue]
    rfl

/-- One connect in three may ask: after a failed attempt and two declined connects the fourth
does, and after the link was opened and lost in a write the next one does. -/
theorem connects_are_paced_one_in_three :
    let start := closed .default 10 (.ofEvery 3)
    let refused := LinkCall.connect (.scripted ⟨none, none, some ⟨.other, "no clone"⟩⟩)
    let failing := [refused, refused, .disconnect, refused]
    let opened := failing ++ [.connect (.scripted .success)]
    let lost := LinkCall.write [0x10] ⟨[.fail ⟨.brokenPipe, "unplugged"⟩], none⟩
    (start.after failing).connected = false ∧ start.tries failing + 1 = 4 ∧
    (start.after failing).Asks ∧
    (start.after opened).connected = true ∧ ((start.after opened).after [lost]).connected = false ∧
    ((start.after opened).after [lost]).Asks := by
  intro start refused failing opened lost
  have hup : (start.after opened).connected = true := by decide
  have hdown : ((start.after opened).after [lost]).connected = false := by decide
  obtain ⟨hverdict, _⟩ := connects_are_paced .default 10 3 failing
  obtain ⟨_, _, _, _, hlost, _⟩ := connects_are_paced .default 10 3 opened
  exact ⟨by decide, by decide, (hverdict (by decide) (by decide)).mpr (by decide), hup, hdown,
    hlost hup [lost] (by decide) hdown⟩

end Connection

end CabinetBus
