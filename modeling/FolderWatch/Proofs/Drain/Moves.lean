import FolderWatch.Drain

/-!
What the single steps of a drain do: a push, a step of the caller, and one rule for each point of a
worker's loop. A trace of a drain tells which items were pushed and which were handed over.
-/

namespace FolderWatch.Drain

variable {α : Type}

def pushedItems (shown : List (Event α)) : List α :=
  shown.filterMap fun event =>
    match event with
    | .pushed item => some item
    | _ => none

/-- The batches handed to the callback, call by call. A call that panics is a call too. -/
def handedBatches (shown : List (Event α)) : List (List α) :=
  shown.filterMap fun event =>
    match event with
    | .began _ batch => some batch
    | _ => none

def callAfter (before : Option (Nat × List α)) : Event α → Option (Nat × List α)
  | .began worker batch => some (worker, batch)
  | .ended .. => none
  | _ => before

def callInProgress (shown : List (Event α)) : Option (Nat × List α) :=
  shown.foldl callAfter none

/-- The event is of the caller's doing and is about no item. -/
def Event.IsCallers : Event α → Prop
  | .logged none _ => True
  | .returned .. => True
  | _ => False

/-- The operation that ended, and how. -/
def Event.result? : Event α → Option (Operation × Except Fault Unit)
  | .returned operation result => some (operation, result)
  | _ => none

/-- One step of a worker: where its loop goes on, what it leaves in the queue, and what shows. -/
inductive WorkerMove (drain : Drain α) (index : Nat) (worker : Worker α) :
    WorkerPhase α → List α → List (Event α) → Prop
  | wakes {first : α} {rest : List α} (phase : worker.phase = .waiting)
      (queued : drain.queue = first :: rest) :
      WorkerMove drain index worker (.woken first) rest [.woke index first]
  | heeds (phase : worker.phase = .waiting) (closed : worker.closed = true) :
      WorkerMove drain index worker .exited drain.queue []
  | counts {first : α} (phase : worker.phase = .woken first) :
      WorkerMove drain index worker (.taking [first] drain.queue.length) drain.queue
        [.counted index drain.queue]
  | completes {batch : List α} {left : Nat} (phase : worker.phase = .taking batch left)
      (done : left = 0 ∨ drain.queue = []) :
      WorkerMove drain index worker (.holding batch) drain.queue []
  | takes {batch rest : List α} {left : Nat} {item : α}
      (phase : worker.phase = .taking batch (left + 1)) (queued : drain.queue = item :: rest) :
      WorkerMove drain index worker (.taking (batch ++ [item]) left) rest []
  | calls {batch : List α} (phase : worker.phase = .holding batch)
      (idle : drain.isCalling = false) :
      WorkerMove drain index worker (.calling batch) drain.queue [.began index batch]
  | returns {batch : List α} (panicked : Bool) (phase : worker.phase = .calling batch) :
      WorkerMove drain index worker .returned drain.queue
        (.ended index batch panicked ::
          if panicked then [.logged (some index) (callbackPanicked batch)] else [])
  | turns (phase : worker.phase = .returned) :
      WorkerMove drain index worker (if worker.closed then .exited else .waiting) drain.queue []

theorem WorkerMove.result? {drain : Drain α} {index : Nat} {worker : Worker α}
    {phase : WorkerPhase α} {queue : List α} {shown : List (Event α)}
    (move : WorkerMove drain index worker phase queue shown) :
    ∀ event ∈ shown, event.result? = none := by
  cases move with
  | returns panicked => cases panicked <;> simp [Event.result?]
  | _ => simp [Event.result?]

theorem stepWorker_move {drain after : Drain α} {index : Nat} {worker : Worker α} {signal : Signal}
    {shown : List (Event α)} (taken : drain.stepWorker index worker signal = some (after, shown)) :
    ∃ phase queue, WorkerMove drain index worker phase queue shown ∧
      after = { drain with queue, workers := drain.workers.set index { worker with phase } } := by
  obtain ⟨closed, phase⟩ := worker
  simp only [stepWorker] at taken
  split at taken
  case h_1 =>
    split at taken
    · simp at taken
    · rename_i first rest queued
      cases taken
      exact ⟨_, _, .wakes rfl queued, rfl⟩
  case h_2 =>
    split at taken
    · rename_i isClosed
      cases taken
      exact ⟨_, _, .heeds rfl isClosed, rfl⟩
    · simp at taken
  case h_3 =>
    cases taken
    exact ⟨_, _, .counts rfl, rfl⟩
  case h_4 =>
    cases taken
    exact ⟨_, _, .completes rfl (.inl rfl), rfl⟩
  case h_5 =>
    split at taken
    · rename_i queued
      cases taken
      exact ⟨_, _, .completes rfl (.inr queued), rfl⟩
    · rename_i item rest queued
      cases taken
      exact ⟨_, _, .takes rfl queued, rfl⟩
  case h_6 =>
    split at taken
    · simp at taken
    · rename_i idle
      cases taken
      exact ⟨_, _, .calls rfl (by simpa using idle), rfl⟩
  case h_7 panicked =>
    cases taken
    exact ⟨_, _, .returns panicked rfl, rfl⟩
  case h_8 =>
    cases taken
    exact ⟨_, _, .turns rfl, rfl⟩
  case h_9 => simp at taken

inductive WorkersMove (workers : List (Worker α)) : List (Worker α) → Prop
  | kept : WorkersMove workers workers
  | spawned : WorkersMove workers (workers ++ [({} : Worker α)])
  | closed (index : Nat) :
      WorkersMove workers (workers.modify index fun worker => { worker with closed := true })

theorem begin_workers {drain after : Drain α} {operation : Operation} {shown : List (Event α)}
    (taken : drain.begin operation = (after, shown)) :
    after.queue = drain.queue ∧ after.workers = drain.workers ∧
      ∀ event ∈ shown, event.IsCallers := by
  cases operation <;> simp only [begin] at taken <;> split at taken <;> cases taken <;>
    simp [Event.IsCallers]

theorem stepControl_workers {drain after : Drain α} {signal : Signal} {shown : List (Event α)}
    (taken : drain.stepControl signal = some (after, shown)) :
    after.queue = drain.queue ∧ WorkersMove drain.workers after.workers ∧
      ∀ event ∈ shown, event.IsCallers := by
  simp only [stepControl] at taken
  split at taken
  case h_1 =>
    cases taken
    exact ⟨rfl, .spawned, by simp⟩
  case h_2 =>
    split at taken <;> cases taken <;> exact ⟨rfl, .kept, by simp [Event.IsCallers]⟩
  case h_3 =>
    cases taken
    exact ⟨rfl, .kept, by simp [Event.IsCallers]⟩
  case h_4 => split at taken <;> cases taken <;> exact ⟨rfl, .kept, by simp⟩
  case h_5 =>
    cases taken
    exact ⟨rfl, .closed _, by simp⟩
  case h_6 =>
    split at taken
    · cases taken
      exact ⟨rfl, .kept, by simp⟩
    · simp at taken
  case h_7 =>
    cases taken
    exact ⟨rfl, .kept, by simp [Event.IsCallers]⟩
  case h_8 =>
    split at taken <;> cases taken <;> exact ⟨rfl, .kept, by simp [finish, Event.IsCallers]⟩
  case h_9 => simp at taken

inductive Move (drain : Drain α) : Drain α → List (Event α) → Prop
  | pushes (item : α) :
      Move drain { drain with queue := drain.queue ++ [item] } [.pushed item]
  | acts {after : Drain α} {shown : List (Event α)} (queue : after.queue = drain.queue)
      (workers : WorkersMove drain.workers after.workers)
      (callers : ∀ event ∈ shown, event.IsCallers) : Move drain after shown
  | works {index : Nat} {worker : Worker α} {phase : WorkerPhase α} {queue : List α}
      {shown : List (Event α)} (here : drain.workers[index]? = some worker)
      (move : WorkerMove drain index worker phase queue shown) :
      Move drain { drain with queue, workers := drain.workers.set index { worker with phase } } shown

/-- An operation is called only when none is under way. -/
theorem begin_of_step {drain after : Drain α} {operation : Operation} {shown : List (Event α)}
    (taken : drain.step (.call operation) = some (after, shown)) :
    drain.control = .free ∧ drain.begin operation = (after, shown) := by
  simp only [step] at taken
  split at taken
  · rename_i free
    exact ⟨free, Option.some.inj taken⟩
  · simp at taken

theorem stepWorker_of_step {drain after : Drain α} {index : Nat} {signal : Signal}
    {shown : List (Event α)} (taken : drain.step (.work index signal) = some (after, shown)) :
    ∃ worker, drain.workers[index]? = some worker ∧
      drain.stepWorker index worker signal = some (after, shown) := by
  simpa only [step, Option.bind_eq_bind, Option.bind_eq_some_iff] using taken

theorem step_move {drain after : Drain α} {action : Action α} {shown : List (Event α)}
    (taken : drain.step action = some (after, shown)) : Move drain after shown := by
  cases action with
  | push item =>
      cases taken
      exact .pushes item
  | call operation =>
      obtain ⟨queue, workers, callers⟩ := begin_workers (begin_of_step taken).2
      exact .acts queue (workers ▸ .kept) callers
  | control signal =>
      obtain ⟨queue, workers, callers⟩ := stepControl_workers taken
      exact .acts queue workers callers
  | work index signal =>
      obtain ⟨worker, here, taken⟩ := stepWorker_of_step taken
      obtain ⟨phase, queue, move, rfl⟩ := stepWorker_move taken
      exact .works here move

def steps (drain : Drain α) : List (Action α) → Option (Drain α × List (Event α))
  | [] => some (drain, [])
  | action :: rest =>
      match drain.step action with
      | none => none
      | some (next, shown) => (next.steps rest).map fun (last, more) => (last, shown ++ more)

theorem steps_of_step {drain middle last : Drain α} {action : Action α} {rest : List (Action α)}
    {shown more : List (Event α)} (stepped : drain.step action = some (middle, shown))
    (goes : middle.steps rest = some (last, more)) :
    drain.steps (action :: rest) = some (last, shown ++ more) := by
  simp [steps, stepped, goes]

theorem steps_cons {drain last : Drain α} {action : Action α} {rest : List (Action α)}
    {shown : List (Event α)} (taken : drain.steps (action :: rest) = some (last, shown)) :
    ∃ next first later, drain.step action = some (next, first) ∧
      next.steps rest = some (last, later) ∧ shown = first ++ later := by
  simp only [steps] at taken
  split at taken
  · simp at taken
  · rename_i next first stepped
    simp only [Option.map_eq_some_iff, Prod.mk.injEq, Prod.exists] at taken
    obtain ⟨_, later, goes, rfl, rfl⟩ := taken
    exact ⟨next, first, later, stepped, goes, rfl⟩

/-- What every action keeps holds after all of them. -/
theorem steps_keep {reached : List (Event α) → Drain α → Prop} {middle last : Drain α}
    {shown more : List (Event α)} (actions : List (Action α)) (start : reached shown middle)
    (keeps : ∀ action ∈ actions, ∀ {past next : List (Event α)} {drain after : Drain α},
      reached past drain → drain.step action = some (after, next) → reached (past ++ next) after)
    (taken : middle.steps actions = some (last, more)) : reached (shown ++ more) last := by
  induction actions generalizing middle shown more with
  | nil =>
      simp only [Drain.steps, Option.some.injEq, Prod.mk.injEq] at taken
      obtain ⟨rfl, rfl⟩ := taken
      simpa using start
  | cons action rest ih =>
      obtain ⟨next, first, later, taking, goes, rfl⟩ := steps_cons taken
      have further := keeps action (by simp) start taking
      have rests := ih further (fun later member => keeps later (by simp [member])) goes
      simpa using rests

theorem Run.steps {first middle last : Drain α} {shown more : List (Event α)}
    (run : Run first shown middle) (actions : List (Action α))
    (taken : middle.steps actions = some (last, more)) : Run first (shown ++ more) last :=
  steps_keep actions run (fun action _ _ _ _ _ before goes => before.step action goes) taken

end FolderWatch.Drain
