-- SUMMARY: The events of a run tell at every moment whether the link of the service is up.
import CabinetBus.Proofs.Observing
import CabinetBus.Proofs.Outbound
import CabinetBus.Proofs.Reporting
import CabinetBus.Service.Lifecycle

/-!
# Following the link of a service

A service only ever moves its link by the operations of a link, and asks an opener only
while the link is down. So the events of a run can be followed: connects and disconnects
take turns, and whatever is read or written is so while the link is up.
-/

namespace CabinetBus

open LinkEvent (followAll)

namespace Service

variable {η : Type} {s t : Service η}

/-! ## Steps -/

/-- The handles of the link are paired, and while an opener is asked the link is down. -/
structure Linked (s : Service η) : Prop where
  paired : s.link.Paired
  down_of_opening : s.reader = .opening → s.link.connected = false

theorem linked_new (config : Config) (handler : η) : (Service.new config handler).Linked where
  paired := Connection.paired_closed ..
  down_of_opening := fun h => by cases h

/-- The events of a step tell whether the link is up behind it. -/
def Tells (s : Service η) (step : ServiceStep η) : Prop :=
  s.Linked → step.service.Linked ∧
    followAll s.link.connected step.events = some step.service.link.connected

namespace Tells

variable {step : ServiceStep η} {next : Service η → ServiceStep η}

theorem andThen (h : s.Tells step) (hnext : ∀ t : Service η, t.Tells (next t)) :
    s.Tells (step.andThen next) := by
  intro hs
  obtain ⟨hlinked, hfirst⟩ := h hs
  obtain ⟨hlater, hrest⟩ := hnext _ hlinked
  refine ⟨hlater, ?_⟩
  change followAll _ (step.events ++ (next step.service).events) = _
  rw [LinkEvent.followAll_append, hfirst]
  exact hrest

/-- A step that keeps the link and asks no opener. -/
theorem of_link_eq (hlink : step.service.link = s.link)
    (hreader : step.service.reader = .opening → s.reader = .opening) (hevents : step.events = []) :
    s.Tells step := by
  intro hs
  refine ⟨⟨by rw [hlink]; exact hs.paired, fun hopening => ?_⟩, by rw [hevents, hlink]; rfl⟩
  rw [hlink]
  exact hs.down_of_opening (hreader hopening)

theorem absorb {α : Type} {step : LinkStep α} (h : s.link.Paired → s.link.Tells step)
    (hdown : s.link.connected = false → step.link.connected = false) : s.Tells (s.absorb step) := by
  intro hs
  obtain ⟨hpaired, hfollow⟩ := h hs.paired
  rw [absorb_eq]
  exact ⟨⟨hpaired, fun hopening => hdown (hs.down_of_opening hopening)⟩, hfollow⟩

end Tells

/-! ## Actions -/

theorem tells_write (s : Service η) (data : Bytes) : s.Tells (.quiet (s.write data)) := by
  obtain ⟨pool, queue, tally, heq⟩ := s.write_eq_update data
  rw [heq]
  exact .of_link_eq rfl id rfl

theorem tells_start (s : Service η) : s.Tells (.quiet s.start.2) := by
  rcases s.start_cases with heq | ⟨_, _, heq⟩
  · rw [heq]
    exact .of_link_eq rfl id rfl
  · rw [heq]
    exact .of_link_eq rfl (fun h => by cases h) rfl

theorem tells_takeNext (s : Service η) : s.Tells (.quiet s.takeNext) := by
  obtain ⟨pool, queue, terminating, writer, tally, heq⟩ := s.takeNext_eq_update
  rw [heq]
  exact .of_link_eq rfl id rfl

theorem tells_completeWrite (s : Service η) (script : WriteScript) :
    s.Tells (s.completeWrite script) := by
  unfold completeWrite
  split
  · rename_i message _
    refine Tells.andThen (.absorb (·.write message.content script)
      (Connection.connected_write_of_down · message.content script)) fun t => ?_
    split <;> exact .of_link_eq rfl id rfl
  · exact .of_link_eq rfl id rfl

theorem tells_beginTurn (s : Service η) : s.Tells s.beginTurn := by
  unfold beginTurn
  split
  · split
    · refine Tells.andThen (.absorb (·.disconnect) fun _ => s.link.connected_disconnect) fun t => ?_
      exact .of_link_eq rfl (fun h => by cases h) rfl
    · rcases s.link.begin_cases with ⟨_, hbegin⟩ | ⟨_, pacing, hbegin⟩ | ⟨hdown, pacing, hbegin⟩
      · rw [hbegin]
        exact .of_link_eq rfl id rfl
      · rw [hbegin]
        exact fun hs =>
          ⟨⟨⟨hs.paired.hasReader_eq, hs.paired.hasWriter_eq⟩, hs.down_of_opening⟩, rfl⟩
      · rw [hbegin]
        exact fun hs => ⟨⟨⟨hs.paired.hasReader_eq, hs.paired.hasWriter_eq⟩, fun _ => hdown⟩, rfl⟩
  · exact .of_link_eq rfl id rfl

theorem tells_completeOpen (s : Service η) (opener : Opener) :
    s.Tells (s.completeOpen opener) := by
  unfold completeOpen
  split
  · rename_i hreader
    intro hs
    obtain ⟨hpaired, hfollow⟩ := hs.paired.complete (hs.down_of_opening hreader) opener
    rw [absorb_eq]
    refine ⟨⟨hpaired, fun h => by cases h⟩, ?_⟩
    exact (congrArg (followAll _) (List.append_nil _)).trans hfollow
  · exact .of_link_eq rfl id rfl

theorem tells_receive (s : Service η) (script : ReadScript) : s.Tells (s.receive script) := by
  unfold receive
  split
  · refine Tells.andThen (.absorb (·.read readSize script)
      (Connection.connected_read_of_down · readSize script)) fun t => ?_
    unfold takeIn
    split
    · exact .of_link_eq rfl id rfl
    · split <;> exact .of_link_eq rfl id rfl
  · exact .of_link_eq rfl id rfl

theorem tells_stop (s : Service η) (last : LastAnswers) : s.Tells (s.stop last) := by
  have hending : s.Tells (.quiet { s with terminating := true }) := .of_link_eq rfl id rfl
  have hsent := hending.andThen (tells_completeWrite · last.write)
  have hleft := hsent.andThen tells_takeNext
  have hdropped (t : Service η) : t.Tells (.quiet t.dropQueue) := .of_link_eq rfl id rfl
  unfold stop
  refine ((hleft.andThen ?_).andThen tells_beginTurn).andThen hdropped
  intro t
  split
  · exact (t.tells_completeOpen last.opener).andThen (·.tells_receive last.read)
  · exact .of_link_eq rfl id rfl

/-! ## Runs -/

theorem tells_perform (s : Service η) (action : ServiceAction η) : s.Tells (s.perform action) := by
  cases action with
  | write data => exact s.tells_write data
  | setHandler handler => exact .of_link_eq rfl id rfl
  | start => exact s.tells_start
  | stop last => exact s.tells_stop last
  | takeNext => exact s.tells_takeNext
  | completeWrite script => exact s.tells_completeWrite script
  | beginTurn => exact s.tells_beginTurn
  | completeOpen opener => exact s.tells_completeOpen opener
  | receive script => exact s.tells_receive script

/-- The events of a whole run tell whether the link is up behind it. -/
theorem tells_run (s : Service η) (actions : List (ServiceAction η)) : s.Tells (s.run actions) := by
  induction actions generalizing s with
  | nil => exact .of_link_eq rfl id rfl
  | cons action rest ih => exact (s.tells_perform action).andThen ih

end Service

end CabinetBus
