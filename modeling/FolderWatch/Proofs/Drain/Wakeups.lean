import Mathlib.Algebra.BigOperators.Group.List.Basic
import Mathlib.Algebra.GroupWithZero.Nat
import FolderWatch.Proofs.Drain.Order

/-!
No item waits while everybody sleeps. A drain that runs has a worker that was not told to stop, and
such a worker never leaves; it sleeps on an empty queue only. So when no worker can go on, everything
pushed was handed over, whatever stops left queued and whatever calls panicked. Left to themselves,
the workers come to that point: each step uses up some of a bounded effort.
-/

namespace FolderWatch.Drain

variable {α : Type} {drain next last : Drain α} {shown more : List (Event α)}
variable {action : Action α} {index : Nat} {worker : Worker α} {phase : WorkerPhase α}
variable {queue : List α} {turns : List (Nat × Signal)}

/-- No worker can take a step. One in a call can: the call may return or panic. -/
def Asleep (drain : Drain α) : Prop :=
  ∀ index signal, drain.step (.work index signal) = none

/-- The worker has left, or it waits and there is nothing for it to do. -/
def Worker.Rests (queue : List α) (worker : Worker α) : Prop :=
  worker.phase = .exited ∨ worker.phase = .waiting ∧ worker.closed = false ∧ queue = []

instance [DecidableEq α] (queue : List α) (worker : Worker α) : Decidable (worker.Rests queue) :=
  inferInstanceAs (Decidable (_ ∨ _))

/-- Everything pushed was handed over: nothing is queued, and no worker holds anything. -/
structure Delivered (shown : List (Event α)) (drain : Drain α) : Prop where
  queue : drain.queue = []
  held : ∀ worker ∈ drain.workers, worker.held = []
  handed : (pushedItems shown).Perm (handedBatches shown).flatten

def working (turns : List (Nat × Signal)) : List (Action α) :=
  turns.map fun turn => .work turn.1 turn.2

/-- How many steps a worker takes at most before it waits on an empty queue or leaves. -/
def WorkerPhase.stepsLeft : WorkerPhase α → Nat
  | .exited => 0
  | .waiting => 1
  | .returned => 2
  | .calling _ => 3
  | .holding _ => 4
  | .taking .. => 5
  | .woken _ => 6

/-- How many steps all workers take at most. An item costs the steps of a batch of its own. -/
def effort (drain : Drain α) : Nat :=
  6 * drain.queue.length + (drain.workers.map fun worker => worker.phase.stepsLeft).sum

/-- The workers alone bring the drain to where everything pushed was handed over: they can take only
so many steps, from wherever these lead they can go on until no one has a step left, and then nothing
is undelivered. -/
structure Settles (shown : List (Event α)) (drain : Drain α) : Prop where
  bounded : ∀ {turns : List (Nat × Signal)} {last : Drain α} {more : List (Event α)},
    drain.steps (working turns) = some (last, more) → turns.length + last.effort ≤ drain.effort
  reached : ∀ {turns : List (Nat × Signal)} {middle : Drain α} {more : List (Event α)},
    drain.steps (working turns) = some (middle, more) →
      ∃ further last log, middle.steps (working further) = some (last, log) ∧ Asleep last
  delivered : ∀ {turns : List (Nat × Signal)} {last : Drain α} {more : List (Event α)},
    drain.steps (working turns) = some (last, more) → Asleep last → Delivered (shown ++ more) last

/-! ### Who sleeps -/

theorem Asleep.unmoved (asleep : Asleep drain) (here : drain.workers[index]? = some worker) :
    ¬WorkerMove drain index worker phase queue more := by
  intro move
  obtain ⟨signal, taken⟩ := move.taken
  have stuck := asleep index signal
  simp [step, here, taken] at stuck

theorem Asleep.idle (asleep : Asleep drain) : drain.isCalling = false := by
  rw [isCalling_eq_false]
  rintro index ⟨closed, phase⟩ here
  cases phase with
  | calling batch => exact absurd (.returns false rfl) (asleep.unmoved here)
  | _ => rfl

theorem Asleep.rests (asleep : Asleep drain) (here : drain.workers[index]? = some worker) :
    worker.Rests drain.queue := by
  have unmoved {phase : WorkerPhase α} {queue : List α} {more : List (Event α)} :
      ¬WorkerMove drain index worker phase queue more := asleep.unmoved here
  obtain ⟨closed, phase⟩ := worker
  cases phase with
  | exited => exact .inl rfl
  | waiting =>
      cases closed with
      | true => exact absurd (.heeds rfl rfl) unmoved
      | false =>
          cases queued : drain.queue with
          | nil => exact .inr ⟨rfl, rfl, rfl⟩
          | cons first rest => exact absurd (.wakes rfl queued) unmoved
  | woken first => exact absurd (.counts rfl) unmoved
  | taking batch left =>
      cases left with
      | zero => exact absurd (.completes rfl (.inl rfl)) unmoved
      | succ left =>
          cases queued : drain.queue with
          | nil => exact absurd (.completes rfl (.inr queued)) unmoved
          | cons item rest => exact absurd (.takes rfl queued) unmoved
  | holding batch => exact absurd (.calls rfl asleep.idle) unmoved
  | calling batch => exact absurd (.returns false rfl) unmoved
  | returned => exact absurd (.turns rfl) unmoved

theorem Worker.Rests.unmoved (rests : worker.Rests drain.queue) :
    ¬WorkerMove drain index worker phase queue more := by
  intro move
  rcases rests with exited | ⟨waiting, unclosed, empty⟩
  · exact move.not_exited exited
  · cases move with
    | wakes was queued => simp [empty] at queued
    | heeds was closed => simp [unclosed] at closed
    | counts was | completes was | takes was | calls was | returns _ was | turns was =>
        simp [waiting] at was

theorem asleep_iff : Asleep drain ↔ ∀ worker ∈ drain.workers, worker.Rests drain.queue := by
  constructor
  · intro asleep worker member
    obtain ⟨index, here⟩ := List.mem_iff_getElem?.mp member
    exact asleep.rests here
  · intro rests index signal
    rw [Option.eq_none_iff_forall_ne_some]
    rintro ⟨last, more⟩ taken
    obtain ⟨worker, phase, queue, here, move, -⟩ := work_move taken
    exact (rests worker (List.mem_of_getElem? here)).unmoved move

/-! ### Who stays awake -/

/-- The worker in charge was not told to stop, unless a stop waits for it, and a worker leaves only
once it was told. -/
structure Staffed (drain : Drain α) : Prop where
  charged : ∀ index, drain.control.charge drain.slot = some index →
    drain.control ≠ .joining index →
      ∃ worker : Worker α, drain.workers[index]? = some worker ∧ worker.closed = false
  stays : ∀ (index : Nat) (worker : Worker α), drain.workers[index]? = some worker →
    worker.phase = .exited → worker.closed = true

theorem WorkerMove.told (move : WorkerMove drain index worker phase queue shown)
    (left : phase = .exited) : worker.closed = true := by
  cases move with
  | heeds was closed => exact closed
  | turns was =>
      cases closed : worker.closed with
      | true => rfl
      | false => simp [closed] at left
  | wakes | counts | completes | takes | calls | returns => cases left

theorem Staffed.callerMove (staffed : Staffed drain) (coherent : Coherent drain)
    (move : CallerMove drain action next shown) : Staffed next := by
  cases move.reassigned coherent with
  | kept workers charge joining joins =>
      refine ⟨?_, by simpa only [workers] using staffed.stays⟩
      intro index charged different
      rw [workers]
      exact staffed.charged index (charge ▸ charged) (joining index)
  | hired vacant workers control =>
      constructor
      · intro index charged different
        simp only [control, Control.charge, Option.some.injEq] at charged
        exact ⟨{}, by simp [workers, charged], rfl⟩
      · intro index worker here gone
        rw [workers, Trace.getElem?_append_one] at here
        split at here
        · cases here
          cases gone
        · exact staffed.stays index worker here gone
  | @dismissed leaver charge workers control =>
      constructor
      · intro index charged different
        simp only [control, Control.charge, Option.some.injEq] at charged
        exact absurd (charged ▸ control) different
      · intro index worker here gone
        by_cases same : leaver = index
        · subst same
          exact closed_of_modify (workers ▸ here)
        · have before : drain.workers[index]? = some worker := by
            simpa [workers, List.getElem?_modify, same] using here
          exact staffed.stays index worker before gone
  | @parted leaver control workers joins vacant waited =>
      refine ⟨?_, by simpa only [workers] using staffed.stays⟩
      intro index charged different
      simp [vacant] at charged

theorem Staffed.step (staffed : Staffed drain) (coherent : Coherent drain)
    (taken : drain.step action = some (next, shown)) : Staffed next := by
  cases action with
  | push item =>
      cases taken
      exact ⟨staffed.charged, staffed.stays⟩
  | call operation => exact staffed.callerMove coherent (call_move taken)
  | control signal => exact staffed.callerMove coherent (control_move taken)
  | work moving signal =>
      obtain ⟨worker, phase, queue, found, move, rfl⟩ := work_move taken
      obtain ⟨below, -⟩ := List.getElem?_eq_some_iff.mp found
      constructor
      · intro index charged different
        obtain ⟨before, was, unclosed⟩ := staffed.charged index charged different
        by_cases same : moving = index
        · subst same
          cases found.symm.trans was
          exact ⟨{ worker with phase }, by simp [below], unclosed⟩
        · exact ⟨before, (List.getElem?_set_ne same).trans was, unclosed⟩
      · intro index other here gone
        rcases getElem?_set_cases here with ⟨rfl, rfl⟩ | ⟨-, before⟩
        · exact move.told gone
        · exact staffed.stays index other before gone

theorem Run.staffed {stopTimeout : TimeSpan} (run : Run { stopTimeout } shown last) :
    Staffed last := by
  induction run with
  | rest => exact ⟨by simp [Control.charge], by simp⟩
  | step action run taken ih => exact ih.step run.coherent taken

theorem Staffed.exists_staying (staffed : Staffed drain) (coherent : Coherent drain)
    (free : drain.control = .free) (running : drain.isRunning = true) :
    ∃ worker ∈ drain.workers, worker.phase ≠ .exited := by
  have agrees := coherent.agrees
  simp only [free, Control.Agrees, running] at agrees
  obtain ⟨index, slot⟩ := Option.isSome_iff_exists.mp agrees.symm
  obtain ⟨worker, here, unclosed⟩ :=
    staffed.charged index (by simp [free, slot, Control.charge]) (by simp [free])
  refine ⟨worker, List.mem_of_getElem? here, fun gone => ?_⟩
  simp [staffed.stays index worker here gone] at unclosed

theorem Run.delivered {stopTimeout : TimeSpan} (run : Run { stopTimeout } shown last)
    (free : last.control = .free) (running : last.isRunning = true) (asleep : Asleep last) :
    Delivered shown last := by
  have rests := asleep_iff.1 asleep
  obtain ⟨worker, member, stays⟩ := run.staffed.exists_staying run.coherent free running
  obtain ⟨-, -, empty⟩ := (rests worker member).resolve_left stays
  have idle : ∀ worker ∈ last.workers, worker.held = [] := by
    intro other member
    rcases rests other member with gone | ⟨waiting, -, -⟩
    · simp [Worker.held, gone]
    · simp [Worker.held, waiting]
  have none : last.held = [] := List.flatMap_eq_nil_iff.mpr idle
  refine ⟨empty, idle, ?_⟩
  simpa [none, empty] using run.items

/-! ### What is left to do -/

theorem sum_stepsLeft_set {workers : List (Worker α)} (here : workers[index]? = some worker)
    (phase : WorkerPhase α) :
    ((workers.set index { worker with phase }).map fun worker => worker.phase.stepsLeft).sum +
        worker.phase.stepsLeft =
      (workers.map fun worker => worker.phase.stepsLeft).sum + phase.stepsLeft := by
  obtain ⟨below, rfl⟩ := List.getElem?_eq_some_iff.mp here
  have split : workers.take index ++ workers[index] :: workers.drop (index + 1) = workers := by
    rw [List.getElem_cons_drop, List.take_append_drop]
  rw [List.set_eq_take_append_cons_drop, if_pos below]
  conv_rhs => rw [← split]
  simp only [List.map_append, List.map_cons, List.sum_append, List.sum_cons]
  omega

theorem WorkerMove.effort_lt (here : drain.workers[index]? = some worker)
    (move : WorkerMove drain index worker phase queue shown) :
    effort { drain with queue, workers := drain.workers.set index { worker with phase } } <
      drain.effort := by
  have weighed := sum_stepsLeft_set here phase
  simp only [effort]
  cases move with
  | wakes was queued | takes was queued =>
      simp only [was, queued, WorkerPhase.stepsLeft, List.length_cons] at weighed ⊢
      omega
  | turns was =>
      cases closed : worker.closed with
      | true =>
          simp only [was, closed, if_true, WorkerPhase.stepsLeft] at weighed ⊢
          omega
      | false =>
          simp only [was, closed, Bool.false_eq_true, if_false, WorkerPhase.stepsLeft] at weighed ⊢
          omega
  | heeds was | counts was | completes was | calls was | returns _ was =>
      simp only [was, WorkerPhase.stepsLeft] at weighed ⊢
      omega

theorem effort_lt {signal : Signal} (taken : drain.step (.work index signal) = some (next, shown)) :
    next.effort < drain.effort := by
  obtain ⟨worker, phase, queue, here, move, rfl⟩ := work_move taken
  exact move.effort_lt here

theorem effort_working (taken : drain.steps (working turns) = some (last, shown)) :
    turns.length + last.effort ≤ drain.effort := by
  induction turns generalizing drain shown with
  | nil =>
      cases taken
      simp
  | cons turn rest ih =>
      obtain ⟨next, first, more, stepped, goes, rfl⟩ := steps_cons taken
      have less := effort_lt stepped
      have later := ih goes
      simp only [List.length_cons]
      omega

theorem exists_asleep (drain : Drain α) :
    ∃ turns last log, drain.steps (working turns) = some (last, log) ∧ Asleep last := by
  by_cases asleep : Asleep drain
  · exact ⟨[], drain, [], rfl, asleep⟩
  · -- Whichever worker goes on, less is left to do after it.
    simp only [Asleep, Classical.not_forall] at asleep
    obtain ⟨index, signal, able⟩ := asleep
    obtain ⟨⟨next, first⟩, stepped⟩ := Option.ne_none_iff_exists'.mp able
    have less := effort_lt stepped
    obtain ⟨turns, last, log, goes, rests⟩ := exists_asleep next
    exact ⟨(index, signal) :: turns, last, _, steps_of_step stepped goes, rests⟩
termination_by drain.effort

theorem working_control (taken : drain.steps (working turns) = some (last, shown)) :
    last.control = drain.control ∧ last.isRunning = drain.isRunning := by
  induction turns generalizing drain shown with
  | nil =>
      cases taken
      exact ⟨rfl, rfl⟩
  | cons turn rest ih =>
      obtain ⟨next, first, more, stepped, goes, rfl⟩ := steps_cons taken
      obtain ⟨worker, phase, queue, -, -, rfl⟩ := work_move stepped
      have later := ih goes
      exact later

theorem Run.settles {stopTimeout : TimeSpan} (run : Run { stopTimeout } shown drain)
    (free : drain.control = .free) (running : drain.isRunning = true) : Settles shown drain where
  bounded := effort_working
  reached := fun {_ middle _} _ => exists_asleep middle
  delivered := by
    intro turns last more taken asleep
    obtain ⟨control, still⟩ := working_control taken
    exact (run.steps _ taken).delivered (control.trans free) (still.trans running) asleep

theorem Coherent.started (coherent : Coherent drain) (free : drain.control = .free)
    (stopped : drain.isRunning = false) :
    ∃ started log, drain.steps
        [.call .start, .control .proceed, .control .proceed, .control .proceed] =
          some (started, log) ∧
      started.control = .free ∧ started.isRunning = true ∧ started.queue = drain.queue := by
  have machine := Lifecycle.eq_initial coherent.machine stopped
  have called := coherent.call_start free stopped
  have moves : Drain.step { drain with
      workers := drain.workers ++ [{}], control := .spawned drain.workers.length }
        (.control .proceed) =
      some ({ drain with
        workers := drain.workers ++ [{}]
        lifecycle := { Lifecycle.initial with state := .running }
        control := .started drain.workers.length },
        [.logged none (Lifecycle.moveLine .initial .start
          { Lifecycle.initial with state := .running })]) := by
    rw [machine]
    rfl
  exact ⟨_, _, steps_of_step called (steps_of_step rfl (steps_of_step moves (steps_of_step rfl rfl))),
    rfl, rfl, rfl⟩

/-- When a drain runs, nobody starts or stops it and no worker can go on, everything pushed was handed
over; and the workers bring it there by themselves, whatever came before. What a stop left queued
needs no push for that, only the next start. -/
theorem no_wake_up_lost {stopTimeout : TimeSpan} (run : Run { stopTimeout } shown last)
    (free : last.control = .free) :
    (last.isRunning = true → (Asleep last → Delivered shown last) ∧ Settles shown last) ∧
    (last.isRunning = false → ∃ started log,
      last.steps [.call .start, .control .proceed, .control .proceed, .control .proceed] =
        some (started, log) ∧
      started.control = .free ∧ started.isRunning = true ∧ started.queue = last.queue ∧
      Settles (shown ++ log) started) := by
  constructor
  · intro running
    exact ⟨run.delivered free running, run.settles free running⟩
  · intro stopped
    obtain ⟨started, log, goes, freed, runs, queue⟩ := run.coherent.started free stopped
    exact ⟨started, log, goes, freed, runs, queue, (run.steps _ goes).settles freed runs⟩

/-- A worker is left alone with its batch, and its successor panics in its call; both come to rest. In
the second run a worker heeds the stop before it looks at the queue. -/
theorem no_wake_up_lost_restarted :
    (∃ (shown : List (Event Nat)) (last : Drain Nat), Run {} shown last ∧ last.control = .free ∧
      last.isRunning = true ∧ Asleep last ∧ handedBatches shown = [[2], [1]] ∧
      Delivered shown last) ∧
    ∃ (shown log : List (Event Nat)) (last started : Drain Nat), Run {} shown last ∧
      last.control = .free ∧ last.isRunning = false ∧ last.queue = [1] ∧
      last.steps [.call .start, .control .proceed, .control .proceed, .control .proceed] =
        some (started, log) ∧
      started.queue = [1] ∧ Settles (shown ++ log) started := by
  have alone := (Run.rest ({} : Drain Nat)).steps
    (starting ++ [.push 1] ++ gathering 0 ++ givingUp ++ starting ++ [.push 2] ++ gathering 1 ++
      [.work 1 .proceed, .work 1 (.ended true), .work 1 .proceed, .work 0 .proceed,
        .work 0 (.ended false), .work 0 .proceed]) rfl
  have heeded := (Run.rest ({} : Drain Nat)).steps
    (starting ++ [.push 1, .call .stop, .control .proceed, .control .proceed, .work 0 .leave,
      .control .proceed, .control .proceed]) rfl
  have rests : ∀ worker ∈ [(⟨true, .exited⟩ : Worker Nat), {}], worker.Rests [] := by decide
  have delivered := ((no_wake_up_lost alone rfl).1 rfl).1 (asleep_iff.2 rests)
  refine ⟨⟨_, _, alone, rfl, rfl, asleep_iff.2 rests, rfl, delivered⟩, ?_⟩
  obtain ⟨started, log, goes, -, -, queue, settles⟩ := (no_wake_up_lost heeded rfl).2 rfl
  exact ⟨_, log, _, started, heeded, rfl, rfl, rfl, goes, queue, settles⟩

end FolderWatch.Drain
