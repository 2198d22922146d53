-- SUMMARY: A stop is a row of moves, and what rows of moves keep holds of whole runs.
import CabinetBus.Proofs.Conservation

/-!
# Moves

All actions but a stop are moves. A stop says that the service is ending, lets what is in
progress end by a few moves, and drops the queue. So what each move keeps, and moves in a row,
is kept by every run, whatever is taken down of its moves.
-/

namespace CabinetBus

/-- How the answer to a message is counted. -/
def Flow.ofAnswer : Except LinkError Unit → Flow
  | .ok () => .succeeded
  | .error _ => .failed

namespace Service

variable {η β : Type}

/-! ## Answers to messages -/

/-- Counts a message that was answered and gives its buffer back. -/
def settle (s : Service η) (message : MessageBuffer) (outcome : Flow) : Service η :=
  { s.countMessage outcome.messages outcome.bytes message.length with
    pool := s.pool.release message
    writer := .waiting }

theorem completeWrite_of_sending {s : Service η} {message : MessageBuffer}
    (h : s.writer = .sending message) (script : WriteScript) :
    s.completeWrite script =
      (s.absorb (s.link.write message.content script)).andThen fun t =>
        .quiet (t.settle message (.ofAnswer (s.link.write message.content script).value)) := by
  unfold completeWrite
  rw [h]
  cases hanswer : (s.link.write message.content script).value <;>
    simp only [hanswer, Flow.ofAnswer, settle] <;>
    rfl

/-! ## Stops -/

theorem reader_completeWrite (s : Service η) (script : WriteScript) :
    (s.completeWrite script).service.reader = s.reader := by
  unfold completeWrite
  split
  · simp only [absorb_eq, ServiceStep.andThen, ServiceStep.quiet]
    split <;> rfl
  · rfl

theorem reader_takeNext (s : Service η) : s.takeNext.reader = s.reader := by
  obtain ⟨_, _, _, _, _, heq⟩ := s.takeNext_eq_update
  rw [heq]

theorem run_singleton (s : Service η) (action : ServiceAction η) :
    s.run [action] = s.perform action := ServiceStep.andThen_quiet _

/-- The answer of an opener that is asked, and the read behind it. -/
def opened (s : Service η) (last : LastAnswers) : List (ServiceAction η) :=
  if s.reader = .opening then [.completeOpen last.opener, .receive last.read] else []

/-- The moves by which a stop lets both activities end. -/
def winding (s : Service η) (last : LastAnswers) : List (ServiceAction η) :=
  .completeWrite last.write :: .takeNext :: s.opened last ++ [.beginTurn]

theorem isStop_of_mem_winding (s : Service η) (last : LastAnswers) :
    ∀ action ∈ s.winding last, action.isStop = false := by
  intro action hmem
  unfold winding opened at hmem
  split at hmem <;> simp at hmem
  · rcases hmem with rfl | rfl | rfl | rfl | rfl <;> rfl
  · rcases hmem with rfl | rfl | rfl <;> rfl

theorem run_opened (s : Service η) (last : LastAnswers) :
    (match s.reader with
      | .opening => (s.completeOpen last.opener).andThen (·.receive last.read)
      | _ => .quiet s) = s.run (s.opened last) := by
  unfold opened
  split
  · rename_i hopening
    rw [if_pos hopening, run_cons]
    exact congrArg _ (funext fun t => (ServiceStep.andThen_quiet _).symm)
  · rename_i hother
    rw [if_neg hother, run_nil]

theorem stop_eq (s : Service η) (last : LastAnswers) :
    s.stop last =
      ({ s with terminating := true }.run (s.winding last)).andThen
        fun t => .quiet t.dropQueue := by
  let left : ServiceStep η :=
    { s with terminating := true }.run [.completeWrite last.write, .takeNext]
  have hreader : left.service.reader = s.reader := by
    show ({ s with terminating := true }.completeWrite last.write).service.takeNext.reader = _
    rw [reader_takeNext, reader_completeWrite]
  have hopened : left.service.opened last = s.opened last := by rw [opened, hreader, opened]
  have hmiddle : left.andThen (fun t => t.run (t.opened last)) =
      left.andThen (run · (s.opened last)) := by
    simp only [ServiceStep.andThen, hopened]
  have hstop : s.stop last =
      ((left.andThen fun t => t.run (t.opened last)).andThen beginTurn).andThen
        fun t => .quiet t.dropQueue := by
    rw [show (fun t : Service η => t.run (t.opened last)) = _ from
      funext fun t => (t.run_opened last).symm]
    rfl
  have hmoves : s.winding last =
      [.completeWrite last.write, .takeNext] ++ s.opened last ++ [.beginTurn] := rfl
  rw [hstop, hmiddle, hmoves, run_append, run_append]
  simp only [run_singleton]
  rfl

/-! ## Runs -/

variable {note : Service η → ServiceAction η → List β}
  {R : Service η → List β → ServiceStep η → Prop}

/-- What is taken down of an action; of a stop it is what is taken down of its moves. -/
def unwound (note : Service η → ServiceAction η → List β) (s : Service η) :
    ServiceAction η → List β
  | .stop last => { s with terminating := true }.log note (s.winding last)
  | action => note s action

theorem unwound_of_move {s : Service η} {action : ServiceAction η} (h : action.isStop = false) :
    s.unwound note action = note s action := by
  cases action with
  | stop last => cases h
  | _ => rfl

/-- A relation between a service, what is taken down, and a part of a run: the moves are in it, and
so are parts in a row. -/
structure Closed (note : Service η → ServiceAction η → List β)
    (R : Service η → List β → ServiceStep η → Prop) : Prop where
  quiet : ∀ s, R s [] (.quiet s)
  andThen : ∀ {s notes step more next}, R s notes step → R step.service more (next step.service) →
    R s (notes ++ more) (step.andThen next)
  move : ∀ s action, action.isStop = false → R s (note s action) (s.perform action)
  ending : ∀ s, R s [] (.quiet { s with terminating := true })
  dropQueue : ∀ s, R s [] (.quiet s.dropQueue)

namespace Closed

theorem moves (h : Closed note R) (s : Service η) {moves : List (ServiceAction η)}
    (hmoves : ∀ action ∈ moves, action.isStop = false) : R s (s.log note moves) (s.run moves) := by
  induction moves generalizing s with
  | nil => exact h.quiet s
  | cons action rest ih =>
      apply h.andThen
      · exact h.move s action (hmoves action List.mem_cons_self)
      · exact ih _ fun other hmem => hmoves other (List.mem_cons_of_mem _ hmem)

theorem stop (h : Closed note R) (s : Service η) (last : LastAnswers) :
    R s (s.unwound note (.stop last)) (s.stop last) := by
  let wound : ServiceStep η := (ServiceStep.quiet { s with terminating := true }).andThen
    (run · (s.winding last))
  have hwound : R s ([] ++ s.unwound note (.stop last)) wound :=
    h.andThen (h.ending s) (h.moves _ (s.isStop_of_mem_winding last))
  have hstop : R s (s.unwound note (.stop last) ++ [])
      (wound.andThen fun t => .quiet t.dropQueue) :=
    h.andThen hwound (h.dropQueue _)
  rw [stop_eq]
  rwa [List.append_nil] at hstop

theorem perform (h : Closed note R) (s : Service η) (action : ServiceAction η) :
    R s (s.unwound note action) (s.perform action) := by
  cases action with
  | stop last => exact h.stop s last
  | _ => exact h.move s _ rfl

/-- A relation that is closed holds of every run. -/
theorem run (h : Closed note R) (s : Service η) (actions : List (ServiceAction η)) :
    R s (s.log (unwound note) actions) (s.run actions) := by
  induction actions generalizing s with
  | nil => exact h.quiet s
  | cons action rest ih => exact h.andThen (h.perform s action) (ih _)

end Closed

end Service

end CabinetBus
