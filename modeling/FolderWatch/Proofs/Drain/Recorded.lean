import FolderWatch.Drain.Recorded
import FolderWatch.Proofs.Drain.Failures
import FolderWatch.Proofs.Drain.Order

/-!
A recorded drain goes no way of its own. Whatever is asked of it, it takes steps that the drain can
take, many of them at once where a worker gathers a long batch; its record and the answers to its
caller are what these steps show.
-/

namespace FolderWatch

namespace Drain

variable {α : Type} {drain middle last : Drain α} {shown more : List (Event α)} {index : Nat}

/-- Items pushed at once are pushed one after the other. -/
theorem steps_pushAll (drain : Drain α) (items : List α) :
    drain.steps (items.map .push) = some (drain.pushAll items, items.map .pushed) := by
  induction items generalizing drain with
  | nil => simp [steps, pushAll]
  | cons item rest ih =>
      have pushed : drain.step (.push item) =
        some ({ drain with queue := drain.queue ++ [item] }, [.pushed item]) := rfl
      simpa [pushAll] using steps_of_step pushed (ih _)

section Gathering

variable {closed : Bool} {batch : List α} {left count : Nat}

theorem gather_of_here (here : drain.workers[index]? = some ⟨closed, .taking batch left⟩) :
    drain.gather index count =
      { drain with queue := drain.queue.drop count }.setWorker index
        ⟨closed, .taking (batch ++ drain.queue.take count) (left - count)⟩ := by
  simp [gather, here]

/-- Items gathered at once are taken one after the other. -/
theorem steps_gather (here : drain.workers[index]? = some ⟨closed, .taking batch left⟩)
    (lacks : count ≤ left) (queued : count ≤ drain.queue.length) :
    drain.steps (List.replicate count (.work index .proceed)) =
      some (drain.gather index count, []) := by
  induction count generalizing drain batch left with
  | zero =>
      obtain ⟨below, same⟩ := List.getElem?_eq_some_iff.mp here
      have unchanged : drain.workers.set index ⟨closed, .taking batch left⟩ = drain.workers := by
        rw [← same, List.set_getElem_self]
      simp [gather_of_here here, steps, setWorker, unchanged]
  | succ count ih =>
      obtain ⟨below, -⟩ := List.getElem?_eq_some_iff.mp here
      obtain ⟨left, rfl⟩ : ∃ fewer, left = fewer + 1 := ⟨left - 1, by omega⟩
      obtain ⟨item, rest, items⟩ : ∃ item rest, drain.queue = item :: rest :=
        List.exists_cons_of_length_pos (by omega)
      let next := { drain with queue := rest }.setWorker index ⟨closed, .taking (batch ++ [item]) left⟩
      have takes : drain.step (.work index .proceed) = some (next, []) := by
        simp [step, here, stepWorker, items, next]
      have there : next.workers[index]? = some ⟨closed, .taking (batch ++ [item]) left⟩ := by
        simp [next, setWorker, below]
      have enough : count ≤ next.queue.length := by
        simpa [next, setWorker, items] using queued
      have gathered : next.gather index count = drain.gather index (count + 1) := by
        rw [gather_of_here there, gather_of_here here]
        simp [next, setWorker, items]
      simpa [List.replicate_succ, gathered] using
        steps_of_step takes (ih there (by omega) enough)

theorem taking_of_within {room : Nat} (finds : drain.within index room = count + 1) :
    ∃ closed batch left, drain.workers[index]? = some ⟨closed, .taking batch left⟩ ∧
      count + 1 ≤ left ∧ count + 1 ≤ drain.queue.length := by
  simp only [within, pending] at finds
  split at finds
  · rename_i closed batch left here
    exact ⟨closed, batch, left, here, by omega, by omega⟩
  · omega

end Gathering

end Drain

namespace RecordedDrain

open Drain

variable {α : Type} {recorded middle after : RecordedDrain α} {shown more : List (Event α)}

/-- The calls that ended, each with whether it panicked. -/
def endedCalls (shown : List (Event α)) : List (List α × Bool) :=
  shown.filterMap fun event =>
    match event with
    | .ended _ batch panicked => some (batch, panicked)
    | _ => none

@[simp] theorem endedCalls_append (first second : List (Event α)) :
    endedCalls (first ++ second) = endedCalls first ++ endedCalls second :=
  List.filterMap_append

/-- One recorded drain becomes the other by steps that show these events, and it has them on record. -/
structure Records (recorded : RecordedDrain α) (shown : List (Event α))
    (after : RecordedDrain α) : Prop where
  run : Run recorded.drain shown after.drain
  entered : after.entered = recorded.entered ++ handedBatches shown
  finished : after.finished = recorded.finished ++ endedCalls shown

theorem Records.rest (recorded : RecordedDrain α) : Records recorded [] recorded :=
  ⟨.rest recorded.drain, by simp [handedBatches], by simp [endedCalls]⟩

theorem Records.trans (first : Records recorded shown middle) (further : Records middle more after) :
    Records recorded (shown ++ more) after where
  run := first.run.trans further.run
  entered := by simp [further.entered, first.entered]
  finished := by simp [further.finished, first.finished]

theorem record_foldl (recorded : RecordedDrain α) (shown : List (Event α)) :
    (shown.foldl record recorded).drain = recorded.drain ∧
      (shown.foldl record recorded).entered = recorded.entered ++ handedBatches shown ∧
      (shown.foldl record recorded).finished = recorded.finished ++ endedCalls shown := by
  induction shown generalizing recorded with
  | nil => simp [handedBatches, endedCalls]
  | cons event rest ih =>
      obtain ⟨drain, entered, finished⟩ := ih (recorded.record event)
      rw [List.foldl_cons, drain, entered, finished]
      cases event <;> simp [record, handedBatches, endedCalls]

theorem take_records (recorded : RecordedDrain α) (action : Action α) :
    Records recorded (recorded.take action).2 (recorded.take action).1 := by
  unfold take
  split
  · exact .rest recorded
  · rename_i drain events stepped
    obtain ⟨same, entered, finished⟩ := record_foldl { recorded with drain } events
    refine ⟨?_, entered, finished⟩
    rw [same]
    simpa using (Run.rest recorded.drain).step action stepped

/-- The events are of the workers' doing: nothing is pushed, and the caller hears nothing. -/
structure Unheard (shown : List (Event α)) : Prop where
  unpushed : pushedItems shown = []
  unread : ∀ answer, shown.foldl Answer.read answer = answer

theorem Unheard.nil : Unheard ([] : List (Event α)) := ⟨rfl, fun _ => rfl⟩

theorem Unheard.append (first : Unheard shown) (second : Unheard more) : Unheard (shown ++ more) where
  unpushed := by simp [first.unpushed, second.unpushed]
  unread answer := by rw [List.foldl_append, first.unread, second.unread]

theorem unheard_of_move {drain : Drain α} {index : Nat} {worker : Worker α}
    {phase : WorkerPhase α} {queue : List α} (move : WorkerMove drain index worker phase queue shown) :
    Unheard shown where
  unpushed := move.pushedItems
  unread answer := by
    cases move with
    | returns panicked => cases panicked <;> rfl
    | wakes | heeds | counts | completes | takes | calls | turns => rfl

theorem take_work_unheard (recorded : RecordedDrain α) (index : Nat) (signal : Signal) :
    Unheard (recorded.take (.work index signal)).2 := by
  unfold take
  split
  · exact .nil
  · rename_i stepped
    obtain ⟨worker, phase, queue, -, move, -⟩ := work_move stepped
    exact unheard_of_move move

theorem settleWith_records (recorded : RecordedDrain α) (panics : List α → Bool) (room fuel : Nat) :
    ∃ shown, Records recorded shown (recorded.settleWith panics room fuel) ∧ Unheard shown := by
  induction fuel generalizing recorded room with
  | zero => exact ⟨[], .rest recorded, .nil⟩
  | succ fuel ih =>
      unfold settleWith
      split
      · exact ⟨[], .rest recorded, .nil⟩
      · rename_i index signal next
        split
        · obtain ⟨more, further, unheard⟩ := ih (recorded.take (.work index signal)).1 room
          exact ⟨_, (take_records recorded _).trans further,
            (take_work_unheard recorded index signal).append unheard⟩
        · -- So many items at once are so many steps, of which none shows anything.
          rename_i count within
          obtain ⟨closed, batch, left, here, lacks, queued⟩ := taking_of_within within
          have gathers := (Run.rest recorded.drain).steps _ (steps_gather here lacks queued)
          obtain ⟨more, further, unheard⟩ :=
            ih { recorded with drain := recorded.drain.gather index (count + 1) } (room - (count + 1))
          exact ⟨more, ⟨gathers.trans further.run, further.entered, further.finished⟩, unheard⟩

theorem goOn_records (recorded : RecordedDrain α) (panics : List α → Bool) (millis : Nat) :
    ∃ shown, Records recorded shown (recorded.goOn panics millis) ∧ Unheard shown :=
  settleWith_records recorded panics _ _

/-- What one waits for happens by steps of the workers alone. -/
theorem settle_records (recorded : RecordedDrain α) (panics : List α → Bool) :
    ∃ shown, Records recorded shown (recorded.settle panics) ∧ Unheard shown :=
  settleWith_records recorded panics _ _

theorem pushAll_records (recorded : RecordedDrain α) (items : List α) :
    Records recorded (items.map .pushed)
      { recorded with drain := recorded.drain.pushAll items } where
  run := by simpa using (Run.rest recorded.drain).steps _ (steps_pushAll recorded.drain items)
  entered := by simp [handedBatches]
  finished := by simp [endedCalls]

@[simp] theorem pushedItems_pushed (items : List α) :
    pushedItems (items.map Event.pushed) = items := by
  rw [pushedItems, List.filterMap_map]
  exact List.filterMap_some

/-- A push takes the steps that push its items in their order, and else only workers take some. -/
theorem push_records (recorded : RecordedDrain α) (panics : List α → Bool) (items : List α) :
    ∃ shown, Records recorded shown (recorded.push panics items) ∧ pushedItems shown = items := by
  obtain ⟨before, goesBefore, unheard⟩ := goOn_records recorded panics 1
  have pushes := pushAll_records (recorded.goOn panics 1) items
  obtain ⟨later, goesOn, unheardLater⟩ := goOn_records
    { recorded.goOn panics 1 with drain := (recorded.goOn panics 1).drain.pushAll items } panics 1
  refine ⟨_, (goesBefore.trans pushes).trans goesOn, ?_⟩
  simp [unheard.unpushed, unheardLater.unpushed]

/-- The outcome is reached by steps, none of them a push, and its answer is read off what they show. -/
def Answers (recorded : RecordedDrain α) (answer : Answer) (outcome : RecordedDrain α × Answer) :
    Prop :=
  ∃ shown, Records recorded shown outcome.1 ∧ pushedItems shown = [] ∧
    outcome.2 = shown.foldl Answer.read answer

theorem Records.answers {answer : Answer} {outcome : RecordedDrain α × Answer}
    (first : Records recorded shown middle) (unpushed : pushedItems shown = [])
    (further : Answers middle (shown.foldl Answer.read answer) outcome) :
    Answers recorded answer outcome := by
  obtain ⟨more, goesOn, unpushedLater, read⟩ := further
  refine ⟨_, first.trans goesOn, by simp [unpushed, unpushedLater], ?_⟩
  rw [read, List.foldl_append]

theorem Answers.goOn {answer : Answer} {outcome : RecordedDrain α × Answer}
    (answers : Answers recorded answer outcome) (panics : List α → Bool) (millis : Nat) :
    Answers recorded answer (outcome.1.goOn panics millis, outcome.2) := by
  obtain ⟨shown, goes, unpushed, read⟩ := answers
  obtain ⟨more, goesOn, unheard⟩ := goOn_records outcome.1 panics millis
  refine ⟨_, goes.trans goesOn, by simp [unpushed, unheard.unpushed], ?_⟩
  rw [read, List.foldl_append, unheard.unread]

theorem take_unpushed (recorded : RecordedDrain α) {action : Action α}
    (callers : action.isCallers = true) : pushedItems (recorded.take action).2 = [] := by
  unfold take
  split
  · rfl
  · rename_i stepped
    exact pushedItems_of_callers (step_callers callers stepped).callers

theorem awaited_records (recorded : RecordedDrain α) (panics : List α → Bool) :
    ∃ shown, Records recorded shown (recorded.awaited panics) ∧ Unheard shown := by
  unfold awaited
  split
  · exact goOn_records recorded panics _
  · exact ⟨[], .rest recorded, .nil⟩

theorem finish_answers (recorded : RecordedDrain α) (panics : List α → Bool) (answer : Answer)
    (fuel : Nat) : Answers recorded answer (recorded.finish panics answer fuel) := by
  induction fuel generalizing recorded answer with
  | zero => exact ⟨[], .rest recorded, rfl, rfl⟩
  | succ fuel ih =>
      obtain ⟨shown, waits, unheard⟩ := awaited_records recorded panics
      refine waits.answers unheard.unpushed ?_
      rw [unheard.unread]
      unfold finish
      dsimp only
      split
      · exact ⟨[], .rest _, rfl, rfl⟩
      · exact (take_records _ _).answers (take_unpushed _ rfl) (ih _ _)

/-- An operation takes steps of its caller and of workers, and its caller hears what these show. -/
theorem operate_answers (recorded : RecordedDrain α) (panics : List α → Bool)
    (operation : Operation) : Answers recorded {} (recorded.operate panics operation) := by
  have before : ∃ shown, Records recorded shown
      (if operation = .start ∧ recorded.drain.isRunning then recorded.goOn panics 1 else recorded) ∧
      Unheard shown := by
    split
    · exact goOn_records recorded panics 1
    · exact ⟨[], .rest recorded, .nil⟩
  unfold operate
  generalize (if operation = .start ∧ recorded.drain.isRunning then recorded.goOn panics 1
    else recorded) = begun at before ⊢
  obtain ⟨shown, goes, unheard⟩ := before
  refine goes.answers unheard.unpushed ?_
  rw [unheard.unread]
  refine (take_records begun (.call operation)).answers (take_unpushed begun rfl) ?_
  have finishes := finish_answers (begun.take (.call operation)).1 panics
    ((begun.take (.call operation)).2.foldl Answer.read {}) longestOperation
  dsimp only
  split
  · exact finishes
  · exact finishes.goOn panics 1

end RecordedDrain

end FolderWatch
