import FolderWatch.Proofs.Drain.Moves
import FolderWatch.Proofs.Trace

/-!
What the caller of a drain does, step by step. Where it is says whether the drain runs and which
worker is its own; as long as every stop waits for its worker, all others are gone.
-/

namespace FolderWatch.Drain

variable {α : Type}

inductive CallerMove (drain : Drain α) : Action α → Drain α → List (Event α) → Prop
  | refused {operation : Operation} {result : Except Fault Unit} (free : drain.control = .free)
      (unchanged : operation = .drop ∨ ∃ fault, result = .error fault) :
      CallerMove drain (.call operation) drain [.returned operation result]
  | startCalled (free : drain.control = .free) (can : drain.lifecycle.can .start = true) :
      CallerMove drain (.call .start) { drain with control := .starting } []
  | stopCalled {operation : Operation} (free : drain.control = .free)
      (runs : drain.lifecycle.can .stop = true ∨ drain.isRunning = true) :
      CallerMove drain (.call operation) { drain with control := .stopping } []
  | spawned (control : drain.control = .starting) :
      CallerMove drain (.control .proceed) { drain with
        workers := drain.workers ++ [{}], control := .spawned drain.workers.length } []
  | startRefused {worker : Nat} (control : drain.control = .spawned worker)
      (stuck : drain.lifecycle.move? .start = none) :
      CallerMove drain (.control .proceed) { drain with control := .free }
        [.returned .start (.error (drain.lifecycle.refusal .start))]
  | startMoved {worker : Nat} {lifecycle : Lifecycle} (control : drain.control = .spawned worker)
      (moved : drain.lifecycle.move? .start = some lifecycle) :
      CallerMove drain (.control .proceed) { drain with lifecycle, control := .started worker }
        [.logged none (drain.lifecycle.moveLine .start lifecycle)]
  | started {worker : Nat} (control : drain.control = .started worker) :
      CallerMove drain (.control .proceed) { drain with slot := some worker, control := .free }
        [.returned .start (.ok ())]
  | slotEmpty (control : drain.control = .stopping) (slot : drain.slot = none) :
      CallerMove drain (.control .proceed) { drain with control := .parted } []
  | slotTaken {worker : Nat} (control : drain.control = .stopping)
      (slot : drain.slot = some worker) :
      CallerMove drain (.control .proceed) { drain with
        slot := none, control := .taken worker } []
  | closed {worker : Nat} (control : drain.control = .taken worker) :
      CallerMove drain (.control .proceed) { drain with
        workers := drain.workers.modify worker fun worker => { worker with closed := true }
        control := .joining worker } []
  | joined {index : Nat} {worker : Worker α} (control : drain.control = .joining index)
      (here : drain.workers[index]? = some worker) (gone : worker.phase = .exited) :
      CallerMove drain (.control .proceed) { drain with control := .parted } []
  | gaveUp {index : Nat} (control : drain.control = .joining index) :
      CallerMove drain (.control .leave) { drain with control := .parted }
        [.logged none (workerLeft drain.stopTimeout)]
  | stopRefused (control : drain.control = .parted)
      (stuck : drain.lifecycle.move? .stop = none) :
      CallerMove drain (.control .proceed) { drain with control := .free }
        [.returned .stop (.error (drain.lifecycle.refusal .stop))]
  | stopped {lifecycle : Lifecycle} (control : drain.control = .parted)
      (moved : drain.lifecycle.move? .stop = some lifecycle) :
      CallerMove drain (.control .proceed) { drain with lifecycle, control := .free }
        [.logged none (drain.lifecycle.moveLine .stop lifecycle), .returned .stop (.ok ())]

theorem CallerMove.callers {drain after : Drain α} {action : Action α} {shown : List (Event α)}
    (move : CallerMove drain action after shown) : ∀ event ∈ shown, event.IsCallers := by
  cases move <;> simp [Event.IsCallers]

theorem call_move {drain after : Drain α} {operation : Operation} {shown : List (Event α)}
    (taken : drain.step (.call operation) = some (after, shown)) :
    CallerMove drain (.call operation) after shown := by
  obtain ⟨free, begun⟩ := begin_of_step taken
  cases operation with
  | start =>
      simp only [begin] at begun
      split at begun <;> cases begun
      · rename_i can
        exact .startCalled free can
      · exact .refused free (.inr ⟨_, rfl⟩)
  | stop =>
      simp only [begin] at begun
      split at begun <;> cases begun
      · rename_i can
        exact .stopCalled free (.inl can)
      · exact .refused free (.inr ⟨_, rfl⟩)
  | drop =>
      simp only [begin] at begun
      split at begun <;> cases begun
      · rename_i running
        exact .stopCalled free (.inr running)
      · exact .refused free (.inl rfl)

theorem control_move {drain after : Drain α} {signal : Signal} {shown : List (Event α)}
    (taken : drain.step (.control signal) = some (after, shown)) :
    CallerMove drain (.control signal) after shown := by
  simp only [step, stepControl] at taken
  split at taken
  case h_1 control =>
    cases taken
    exact .spawned control
  case h_2 control =>
    split at taken <;> cases taken
    · rename_i stuck
      exact .startRefused control stuck
    · rename_i moved
      exact .startMoved control moved
  case h_3 control =>
    cases taken
    exact .started control
  case h_4 control =>
    split at taken <;> cases taken
    · rename_i slot
      exact .slotEmpty control slot
    · rename_i slot
      exact .slotTaken control slot
  case h_5 control =>
    cases taken
    exact .closed control
  case h_6 control =>
    split at taken
    · rename_i here
      cases taken
      exact .joined control here rfl
    · simp at taken
  case h_7 control =>
    cases taken
    exact .gaveUp control
  case h_8 control =>
    split at taken <;> cases taken
    · rename_i stuck
      exact .stopRefused control stuck
    · rename_i moved
      exact .stopped control moved
  case h_9 => simp at taken

theorem work_move {drain after : Drain α} {index : Nat} {signal : Signal}
    {shown : List (Event α)} (taken : drain.step (.work index signal) = some (after, shown)) :
    ∃ worker phase queue, drain.workers[index]? = some worker ∧
      WorkerMove drain index worker phase queue shown ∧
      after = { drain with queue, workers := drain.workers.set index { worker with phase } } := by
  obtain ⟨worker, here, taken⟩ := stepWorker_of_step taken
  obtain ⟨phase, queue, move, rfl⟩ := stepWorker_move taken
  exact ⟨worker, phase, queue, here, move, rfl⟩

/-- Where the caller is says whether the drain runs and whether its slot is taken. -/
def Control.Agrees (running : Bool) (slot : Option Nat) : Control → Prop
  | free => running = slot.isSome
  | starting | spawned _ => running = false ∧ slot = none
  | stopping => running = true ∧ slot.isSome = true
  | _ => running = true ∧ slot = none

structure Coherent (drain : Drain α) : Prop where
  machine : drain.lifecycle = { Lifecycle.initial with
    state := if drain.isRunning then .running else .stopped }
  agrees : drain.control.Agrees drain.isRunning drain.slot

variable {drain after : Drain α} {action : Action α} {shown : List (Event α)}

theorem Coherent.start_moves {worker : Nat} (coherent : Coherent drain)
    (control : drain.control = .spawned worker) :
    drain.lifecycle.move? .start = some { Lifecycle.initial with state := .running } := by
  have agrees := coherent.agrees
  simp only [control, Control.Agrees] at agrees
  exact Lifecycle.move?_start coherent.machine agrees.1

theorem Coherent.stop_moves (coherent : Coherent drain) (control : drain.control = .parted) :
    drain.lifecycle.move? .stop = some .initial := by
  have agrees := coherent.agrees
  simp only [control, Control.Agrees] at agrees
  exact Lifecycle.move?_stop coherent.machine agrees.1

theorem Coherent.callerMove (coherent : Coherent drain)
    (move : CallerMove drain action after shown) : Coherent after := by
  have agrees := coherent.agrees
  cases move with
  | refused => exact coherent
  | startCalled control can =>
      have stopped : drain.isRunning = false := (Lifecycle.can_start_iff coherent.machine).mp can
      simp only [control, Control.Agrees, stopped] at agrees
      have empty : drain.slot = none := by simpa using agrees.symm
      exact ⟨coherent.machine, stopped, empty⟩
  | stopCalled control runs =>
      have running : drain.isRunning = true := by
        rcases runs with can | running
        · exact (Lifecycle.can_stop_iff coherent.machine).mp can
        · exact running
      simp only [control, Control.Agrees, running] at agrees
      exact ⟨coherent.machine, running, agrees.symm⟩
  | spawned control | closed control | joined control | gaveUp control =>
      simp only [control, Control.Agrees] at agrees
      exact ⟨coherent.machine, agrees⟩
  | startRefused control stuck => simp [coherent.start_moves control] at stuck
  | startMoved control moved =>
      simp only [control, Control.Agrees] at agrees
      cases (coherent.start_moves control).symm.trans moved
      exact ⟨rfl, rfl, agrees.2⟩
  | started control =>
      simp only [control, Control.Agrees] at agrees
      exact ⟨coherent.machine, agrees.1⟩
  | slotEmpty control slot =>
      simp [control, Control.Agrees, slot] at agrees
  | slotTaken control slot =>
      simp only [control, Control.Agrees] at agrees
      exact ⟨coherent.machine, agrees.1, rfl⟩
  | stopRefused control stuck => simp [coherent.stop_moves control] at stuck
  | stopped control moved =>
      simp only [control, Control.Agrees] at agrees
      cases (coherent.stop_moves control).symm.trans moved
      have stopped : false = drain.slot.isSome := by simp [agrees.2]
      exact ⟨rfl, stopped⟩

theorem Coherent.step (coherent : Coherent drain)
    (taken : drain.step action = some (after, shown)) : Coherent after := by
  cases action with
  | push item =>
      cases taken
      exact ⟨coherent.machine, coherent.agrees⟩
  | call operation => exact coherent.callerMove (call_move taken)
  | control signal => exact coherent.callerMove (control_move taken)
  | work index signal =>
      obtain ⟨worker, phase, queue, -, -, rfl⟩ := work_move taken
      exact ⟨coherent.machine, coherent.agrees⟩

theorem coherent_fresh (stopTimeout : TimeSpan) : Coherent ({ stopTimeout } : Drain α) :=
  ⟨rfl, rfl⟩

/-- The worker that the caller has in hand or that the next stop will stop. -/
def Control.charge (slot : Option Nat) : Control → Option Nat
  | spawned worker | started worker | taken worker | joining worker => some worker
  | _ => slot

/-- What a move of the caller does to the workers and to the one in charge. -/
inductive Reassigned (drain next : Drain α) (action : Action α) : Prop
  | kept (workers : next.workers = drain.workers)
      (charge : next.control.charge next.slot = drain.control.charge drain.slot)
      (joining : ∀ index, drain.control ≠ .joining index)
      (joins : ∀ index, next.control ≠ .joining index)
  | hired (vacant : drain.control.charge drain.slot = none)
      (workers : next.workers = drain.workers ++ [({} : Worker α)])
      (control : next.control = .spawned drain.workers.length)
  | dismissed {leaver : Nat} (charge : drain.control.charge drain.slot = some leaver)
      (workers : next.workers =
        drain.workers.modify leaver fun worker => { worker with closed := true })
      (control : next.control = .joining leaver)
  | parted {leaver : Nat} (control : drain.control = .joining leaver)
      (workers : next.workers = drain.workers) (joins : ∀ index, next.control ≠ .joining index)
      (vacant : next.control.charge next.slot = none)
      (waited : action = .control .leave ∨
        ∃ worker, drain.workers[leaver]? = some worker ∧ worker.phase = .exited)

theorem CallerMove.reassigned (coherent : Coherent drain)
    (move : CallerMove drain action after shown) : Reassigned drain after action := by
  have agrees := coherent.agrees
  cases move with
  | refused control => exact .kept rfl rfl (by simp [control]) (by simp [control])
  | startRefused control stuck => simp [coherent.start_moves control] at stuck
  | startCalled control | stopCalled control | started control | startMoved control
  | slotEmpty control | stopRefused control | stopped control =>
      exact .kept rfl (by simp [control, Control.charge]) (by simp [control]) (by simp)
  | slotTaken control slot =>
      exact .kept rfl (by simp [control, slot, Control.charge]) (by simp [control]) (by simp)
  | spawned control =>
      simp only [control, Control.Agrees] at agrees
      exact .hired (by simp [control, agrees.2, Control.charge]) rfl rfl
  | closed control => exact .dismissed (by simp [control, Control.charge]) rfl rfl
  | joined control here gone =>
      simp only [control, Control.Agrees] at agrees
      exact .parted control rfl (by simp) (by simp [agrees.2, Control.charge])
        (.inr ⟨_, here, gone⟩)
  | gaveUp control =>
      simp only [control, Control.Agrees] at agrees
      exact .parted control rfl (by simp) (by simp [agrees.2, Control.charge]) (.inl rfl)

def Sole (drain : Drain α) : Prop :=
  ∀ index worker, drain.workers[index]? = some worker →
    drain.control.charge drain.slot ≠ some index → worker.phase = .exited

theorem WorkerMove.not_exited {index : Nat} {worker : Worker α} {phase : WorkerPhase α}
    {queue : List α} (move : WorkerMove drain index worker phase queue shown) :
    worker.phase ≠ .exited := by
  cases move with
  | wakes was | heeds was | counts was | completes was | takes was | calls was | returns _ was
  | turns was => simp [was]

theorem getElem?_set_cases {workers : List (Worker α)} {moving index : Nat} {next other : Worker α}
    (here : (workers.set moving next)[index]? = some other) :
    moving = index ∧ next = other ∨ moving ≠ index ∧ workers[index]? = some other := by
  rw [List.getElem?_set] at here
  by_cases same : moving = index
  · rw [if_pos same, Option.ite_none_right_eq_some, Option.some.injEq] at here
    exact .inl ⟨same, here.2⟩
  · rw [if_neg same] at here
    exact .inr ⟨same, here⟩

theorem closed_of_modify {workers : List (Worker α)} {leaver : Nat} {worker : Worker α}
    (here : (workers.modify leaver fun worker =>
      { worker with closed := true })[leaver]? = some worker) : worker.closed = true := by
  simp only [List.getElem?_modify_eq, Option.map_eq_map, Option.map_eq_some_iff] at here
  obtain ⟨before, -, rfl⟩ := here
  rfl

/-- A worker that is not in charge afterwards was there before, and was not in charge then either
unless the caller has just parted with it. -/
theorem Reassigned.uncharged {index : Nat} {worker : Worker α}
    (reassigned : Reassigned drain after action) (here : after.workers[index]? = some worker)
    (different : after.control.charge after.slot ≠ some index) :
    drain.workers[index]? = some worker ∧
      (drain.control.charge drain.slot ≠ some index ∨
        drain.control = .joining index ∧
          (action = .control .leave ∨ worker.phase = .exited)) := by
  cases reassigned with
  | kept workers charge =>
      rw [workers] at here
      rw [charge] at different
      exact ⟨here, .inl different⟩
  | hired vacant workers control =>
      have old : index ≠ drain.workers.length := by
        rintro rfl
        exact different (by simp [control, Control.charge])
      rw [workers, Trace.getElem?_append_one, if_neg old] at here
      exact ⟨here, .inl (by simp [vacant])⟩
  | @dismissed leaver charge workers control =>
      have other : leaver ≠ index := by
        rintro rfl
        exact different (by simp [control, Control.charge])
      have before : drain.workers[index]? = some worker := by
        simpa [workers, List.getElem?_modify, other] using here
      exact ⟨before, .inl (by simpa [charge] using other)⟩
  | @parted leaver control workers joins vacant waited =>
      rw [workers] at here
      refine ⟨here, ?_⟩
      by_cases same : leaver = index
      · subst same
        refine .inr ⟨control, waited.imp_right ?_⟩
        rintro ⟨joined, found, gone⟩
        cases here.symm.trans found
        exact gone
      · exact .inl (by simpa [control, Control.charge] using same)

theorem Sole.callerMove (sole : Sole drain) (coherent : Coherent drain)
    (move : CallerMove drain action after shown) (waits : action ≠ .control .leave) :
    Sole after := by
  intro index worker here different
  obtain ⟨before, uncharged | ⟨-, gaveUp | gone⟩⟩ :=
    (move.reassigned coherent).uncharged here different
  · exact sole index worker before uncharged
  · exact absurd gaveUp waits
  · exact gone

theorem Sole.step (sole : Sole drain) (coherent : Coherent drain)
    (waits : action ≠ .control .leave) (taken : drain.step action = some (after, shown)) :
    Sole after := by
  cases action with
  | push item =>
      cases taken
      exact sole
  | call operation => exact sole.callerMove coherent (call_move taken) waits
  | control signal => exact sole.callerMove coherent (control_move taken) waits
  | work moving signal =>
      obtain ⟨worker, phase, queue, found, move, rfl⟩ := work_move taken
      intro index other here different
      rcases getElem?_set_cases here with ⟨rfl, -⟩ | ⟨-, before⟩
      · exact absurd (sole moving worker found different) move.not_exited
      · exact sole index other before different

theorem Sole.gone_of_stopped (sole : Sole drain) (coherent : Coherent drain)
    (free : drain.control = .free) (stopped : drain.isRunning = false) {index : Nat}
    {worker : Worker α} (here : drain.workers[index]? = some worker) : worker.phase = .exited := by
  have agrees := coherent.agrees
  simp only [free, Control.Agrees, stopped] at agrees
  have slot : drain.slot = none := by simpa using agrees.symm
  exact sole index worker here (by simp [free, slot, Control.charge])

/-- Where the caller is within a start. -/
def Control.IsStart : Control → Prop
  | starting | spawned _ | started _ => True
  | _ => False

/-- Where the caller is within a stop. -/
def Control.IsStop : Control → Prop
  | stopping | taken _ | joining _ | parted => True
  | _ => False

theorem CallerMove.starts (coherent : Coherent drain) (move : CallerMove drain action after shown)
    (start : drain.control.IsStart) :
    after.control.IsStart ∨ after.control = .free ∧ after.isRunning = true := by
  have agrees := coherent.agrees
  cases move with
  | spawned | startMoved => exact .inl trivial
  | startRefused control stuck => simp [coherent.start_moves control] at stuck
  | started control =>
      simp only [control, Control.Agrees] at agrees
      exact .inr ⟨rfl, agrees.1⟩
  | refused control | startCalled control | stopCalled control | slotEmpty control
  | slotTaken control | closed control | joined control | gaveUp control | stopRefused control
  | stopped control => simp [control, Control.IsStart] at start

theorem CallerMove.stops (coherent : Coherent drain) (move : CallerMove drain action after shown)
    (stop : drain.control.IsStop) :
    after.control.IsStop ∨ after.control = .free ∧ after.isRunning = false := by
  cases move with
  | slotEmpty | slotTaken | closed | joined | gaveUp => exact .inl trivial
  | stopRefused control stuck => simp [coherent.stop_moves control] at stuck
  | stopped control moved =>
      cases (coherent.stop_moves control).symm.trans moved
      exact .inr ⟨rfl, rfl⟩
  | refused control | startCalled control | stopCalled control | spawned control
  | startRefused control | startMoved control | started control =>
      simp [control, Control.IsStop] at stop

theorem Coherent.call_start (coherent : Coherent drain) (free : drain.control = .free)
    (stopped : drain.isRunning = false) :
    drain.step (.call .start) = some ({ drain with control := .starting }, []) := by
  have can := (Lifecycle.can_start_iff coherent.machine).mpr stopped
  simp [Drain.step, free, begin, can]

theorem Coherent.call_stop (coherent : Coherent drain) (free : drain.control = .free)
    (running : drain.isRunning = true) :
    drain.step (.call .stop) = some ({ drain with control := .stopping }, []) := by
  have can := (Lifecycle.can_stop_iff coherent.machine).mpr running
  simp [Drain.step, free, begin, can]

theorem call_drop (free : drain.control = .free) (running : drain.isRunning = true) :
    drain.step (.call .drop) = some ({ drain with control := .stopping }, []) := by
  simp [step, free, begin, running]

/-- A run in which every stop waits until its worker is gone. -/
inductive PatientRun : Drain α → List (Event α) → Drain α → Prop
  | rest (drain : Drain α) : PatientRun drain [] drain
  | step {first middle last : Drain α} {shown more : List (Event α)} (action : Action α)
      (run : PatientRun first shown middle) (waits : action ≠ .control .leave)
      (taken : middle.step action = some (last, more)) : PatientRun first (shown ++ more) last

theorem PatientRun.run {first last : Drain α} (run : PatientRun first shown last) :
    Run first shown last := by
  induction run with
  | rest => exact .rest _
  | step action run waits taken ih => exact ih.step action taken

theorem Run.coherent {stopTimeout : TimeSpan} {last : Drain α}
    (run : Run { stopTimeout } shown last) : Coherent last := by
  induction run with
  | rest => exact coherent_fresh stopTimeout
  | step action run taken ih => exact ih.step taken

theorem PatientRun.coherent {stopTimeout : TimeSpan} {last : Drain α}
    (run : PatientRun { stopTimeout } shown last) : Coherent last := run.run.coherent

theorem PatientRun.sole {stopTimeout : TimeSpan} {last : Drain α}
    (run : PatientRun { stopTimeout } shown last) : Sole last := by
  induction run with
  | rest =>
      intro index worker here
      simp at here
  | step action run waits taken ih => exact ih.step run.coherent waits taken

theorem PatientRun.steps {first middle last : Drain α} {shown more : List (Event α)}
    (run : PatientRun first shown middle) (actions : List (Action α))
    (waits : .control .leave ∉ actions) (taken : middle.steps actions = some (last, more)) :
    PatientRun first (shown ++ more) last := by
  refine steps_keep actions run ?_ taken
  intro action member _ _ _ _ before goes
  refine before.step action ?_ goes
  rintro rfl
  exact waits member

end FolderWatch.Drain
