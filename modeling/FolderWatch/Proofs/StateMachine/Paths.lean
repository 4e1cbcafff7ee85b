import FolderWatch.Proofs.StateMachine.Tasks
import FolderWatch.Proofs.Trace
import FolderWatch.RunState
import FolderWatch.StateMachine.Threads

/-!
However threads and subscribers interleave, the moves a machine makes are a path of its table. Every
task was set off by a move or a refusal that has shown already, and every entry of the log is
accounted for by the entries before it.
-/

namespace FolderWatch.StateMachine

variable {σ ε : Type}

/-- The moves made, in the order in which they changed the state. -/
def movesOf (log : List (Entry σ ε)) : List (Move σ ε) :=
  log.filterMap fun entry =>
    match entry with
    | .applied _ move => some move
    | _ => none

@[simp] theorem movesOf_append (front tail : List (Entry σ ε)) :
    movesOf (front ++ tail) = movesOf front ++ movesOf tail :=
  List.filterMap_append ..

def stateAfter (initial : σ) (log : List (Entry σ ε)) : σ :=
  (movesOf log).foldl (fun _ move => move.target) initial

inductive Path (table : List (Move σ ε)) : σ → List (Move σ ε) → σ → Prop
  | rest (state : σ) : Path table state [] state
  | step {first last : σ} {moves : List (Move σ ε)} {move : Move σ ε}
      (path : Path table first moves last) (here : move.source = last)
      (counts : Counts table move) : Path table first (moves ++ [move]) move.target

/-- What set the task off has shown. -/
def Known (log : List (Entry σ ε)) : Task σ ε → Prop
  | .fire .. => True
  | .announce serial move | .tell serial _ move => .applied serial move ∈ log
  | .announceTerminal serial reached | .tellTerminal serial _ reached =>
      ∃ move, .applied serial move ∈ log ∧ move.target = reached
  | .giveBack _ (.moved target) => ∃ serial move, .applied serial move ∈ log ∧ move.target = target
  | .giveBack _ (.refused event state) => .refused event state ∈ log

/-- The entry is accounted for by those before it: a move is the one that counts for the state it
found, a refusal found no move, a subscriber hears of a move that was made, and a caller is given what
was decided. -/
def Justified (table : List (Move σ ε)) (initial : σ) (past : List (Entry σ ε)) :
    Entry σ ε → Prop
  | .applied serial move =>
      serial = (movesOf past).length ∧ move.source = stateAfter initial past ∧ Counts table move
  | .refused event state =>
      state = stateAfter initial past ∧
        ∀ move ∈ table, ¬(move.source = state ∧ move.event = event)
  | .told serial _ _ move current =>
      .applied serial move ∈ past ∧ current = stateAfter initial past
  | .toldTerminal serial _ _ reached current =>
      (∃ move, .applied serial move ∈ past ∧ move.target = reached) ∧
        current = stateAfter initial past
  | .returned _ (.moved target) => ∃ serial move, .applied serial move ∈ past ∧ move.target = target
  | .returned _ (.refused event state) => .refused event state ∈ past

structure Consistent (table : List (Move σ ε)) (initial : σ) (log : List (Entry σ ε))
    (machine : StateMachine σ ε) : Prop where
  fixed : machine.table = table
  moves : machine.moves = (movesOf log).length
  state : machine.state = stateAfter initial log
  path : Path table initial (movesOf log) machine.state

variable {table : List (Move σ ε)} {initial : σ} {log entries : List (Entry σ ε)}
variable {machine after : StateMachine σ ε} {task : Task σ ε} {new : List (Task σ ε)}

theorem Known.append (known : Known log task) (more : List (Entry σ ε)) :
    Known (log ++ more) task := by
  cases task with
  | fire => trivial
  | announce | tell => exact List.mem_append_left _ known
  | announceTerminal | tellTerminal =>
      obtain ⟨move, applied, reached⟩ := known
      exact ⟨move, List.mem_append_left _ applied, reached⟩
  | giveBack id outcome =>
      cases outcome with
      | moved target =>
          obtain ⟨serial, move, applied, reached⟩ := known
          exact ⟨serial, move, List.mem_append_left _ applied, reached⟩
      | refused => exact List.mem_append_left _ known

theorem Consistent.quiet (consistent : Consistent table initial log machine)
    (quiet : movesOf entries = []) (same : after.table = machine.table)
    (moves : after.moves = machine.moves) (state : after.state = machine.state) :
    Consistent table initial (log ++ entries) after := by
  have silent : movesOf (log ++ entries) = movesOf log := by simp [quiet]
  refine ⟨same.trans consistent.fixed, ?_, ?_, ?_⟩
  · rw [moves, silent]
    exact consistent.moves
  · rw [state, stateAfter, silent]
    exact consistent.state
  · rw [state, silent]
    exact consistent.path

variable [DecidableEq σ] [DecidableEq ε]

theorem TaskStep.consistent (consistent : Consistent table initial log machine)
    (step : TaskStep machine task after new entries) :
    Consistent table initial (log ++ entries) after := by
  cases step with
  | applies found =>
      have counts := next?_eq_some.mp found
      rw [consistent.fixed] at counts
      refine ⟨consistent.fixed, ?_, ?_, ?_⟩
      · simp [movesOf, consistent.moves]
      · simp [stateAfter, movesOf]
      · rw [movesOf_append]
        exact consistent.path.step rfl counts
  | _ => exact consistent.quiet rfl rfl rfl rfl

theorem TaskStep.known (known : Known log task) (step : TaskStep machine task after new entries) :
    ∀ later ∈ new, Known (log ++ entries) later := by
  cases step with
  | @applies event caller =>
      simp only [List.mem_cons, giveBackTo, List.mem_map, Option.mem_toList, forall_eq_or_imp]
      refine ⟨by simp [Known], ?_⟩
      rintro later ⟨id, -, rfl⟩
      exact ⟨_, _, List.mem_append_right _ (List.mem_singleton_self _), rfl⟩
  | refuses =>
      simp only [giveBackTo, List.mem_map, Option.mem_toList]
      rintro later ⟨id, -, rfl⟩
      exact List.mem_append_right _ (List.mem_singleton_self _)
  | announces =>
      simp only [List.mem_append, List.mem_map, List.mem_singleton, List.append_nil]
      rintro later (⟨index, -, rfl⟩ | rfl)
      · exact known
      · exact ⟨_, known, rfl⟩
  | announcesTerminal =>
      simp only [List.mem_map, List.append_nil]
      rintro later ⟨index, -, rfl⟩
      exact known
  | tells | tellsTerminal =>
      simp only [List.mem_map]
      rintro later ⟨event, -, rfl⟩
      trivial
  | tellsNobody | passes | tellsNobodyTerminal | givesBack => simp

theorem TaskStep.justified (consistent : Consistent table initial log machine)
    (known : Known log task) (step : TaskStep machine task after new entries) :
    Trace.Always (fun past => Justified table initial (log ++ past)) entries := by
  cases step with
  | applies found =>
      have counts := next?_eq_some.mp found
      rw [consistent.fixed] at counts
      rw [Trace.always_singleton, List.append_nil]
      exact ⟨consistent.moves, consistent.state, counts⟩
  | refuses stuck =>
      have none := next?_eq_none.mp stuck
      rw [consistent.fixed] at none
      rw [Trace.always_singleton, List.append_nil]
      exact ⟨consistent.state, none⟩
  | tells | tellsTerminal =>
      rw [Trace.always_singleton, List.append_nil]
      exact ⟨known, consistent.state⟩
  | @givesBack id outcome =>
      rw [Trace.always_singleton, List.append_nil]
      cases outcome <;> exact known
  | announces | tellsNobody | announcesTerminal | passes | tellsNobodyTerminal =>
      exact Trace.Always.nil _

namespace Shared

/-- What all threads keep. -/
structure Sound (table : List (Move σ ε)) (initial : σ) (log : List (Entry σ ε))
    (shared : Shared σ ε) : Prop where
  consistent : Consistent table initial log shared.machine
  known : ∀ thread, ∀ task ∈ shared.tasksOf thread, Known log task
  justified : Trace.Always (Justified table initial) log

variable {shared later : Shared σ ε}

theorem Sound.step {action : Action σ ε} (sound : Sound table initial log shared)
    (taken : shared.step action = some (later, entries)) :
    Sound table initial (log ++ entries) later := by
  obtain ⟨consistent, known, justified⟩ := sound
  cases action with
  | fire thread event caller =>
      cases taken
      refine ⟨consistent.quiet rfl rfl rfl rfl, ?_, by simpa using justified⟩
      intro other task member
      rw [List.append_nil]
      simp only [setStack] at member
      split at member
      · rcases List.mem_cons.mp member with rfl | old
        · trivial
        · exact known thread task old
      · exact known other task member
  | go thread =>
      simp only [Shared.step] at taken
      split at taken
      · simp at taken
      · rename_i task tasks stack
        cases taken
        have step := step_taskStep (rfl : shared.machine.step task = _)
        have first := known thread task (by simp [stack])
        refine ⟨step.consistent consistent, ?_, justified.append (step.justified consistent first)⟩
        intro other task member
        simp only [setStack] at member
        split at member
        · rcases List.mem_append.mp member with set | old
          · exact step.known first task set
          · exact (known thread task (by simp [stack, old])).append _
        · exact (known other task member).append _
  | addMoveHook | addTerminalHook | addTerminalStates =>
      cases taken
      exact ⟨consistent.quiet rfl rfl rfl rfl, by simpa using known, by simpa using justified⟩

theorem Run.sound {last : Shared σ ε}
    (run : Run { machine := { state := initial, table } } log last) :
    Sound table initial log last := by
  induction run with
  | rest => exact ⟨⟨rfl, rfl, rfl, .rest initial⟩, by simp, .nil _⟩
  | step action run taken ih => exact ih.step taken

theorem Run.trans {first middle last : Shared σ ε} {more : List (Entry σ ε)}
    (run : Run first log middle) (goesOn : Run middle more last) : Run first (log ++ more) last := by
  induction goesOn with
  | rest => simpa using run
  | step action _ taken ih => simpa using ih.step action taken

/-- One thread has tasks, and all others are idle. -/
def busy (machine : StateMachine σ ε) (tasks : List (Task σ ε)) : Shared σ ε :=
  ({ machine } : Shared σ ε).setStack 0 tasks

omit [DecidableEq σ] [DecidableEq ε] in
theorem setStack_busy (machine : StateMachine σ ε) (tasks after : List (Task σ ε)) :
    (busy machine tasks).setStack 0 after = busy machine after := by
  simp only [setStack, busy, Shared.mk.injEq, true_and]
  funext thread
  split <;> simp_all

omit [DecidableEq σ] [DecidableEq ε] in
theorem busy_nil (machine : StateMachine σ ε) : busy machine [] = { machine } := by
  simp [busy, setStack]

theorem step_busy (machine : StateMachine σ ε) (task : Task σ ε) (tasks : List (Task σ ε)) :
    (busy machine (task :: tasks)).step (.go 0) =
      some (busy (machine.step task).1 ((machine.step task).2.1 ++ tasks),
        (machine.step task).2.2) := by
  have same := setStack_busy machine (task :: tasks) ((machine.step task).2.1 ++ tasks)
  exact congrArg (fun shared : Shared σ ε =>
    some ({ shared with machine := (machine.step task).1 }, (machine.step task).2.2)) same

theorem run_busy {fuel : Nat} {tasks : List (Task σ ε)} (enough : machine.work tasks ≤ fuel) :
    Run (busy machine tasks) (machine.run fuel tasks).2 (busy (machine.run fuel tasks).1 []) := by
  induction fuel generalizing machine tasks with
  | zero =>
      cases tasks with
      | nil => exact .rest _
      | cons task tasks =>
          have less := machine.step_work task tasks
          omega
  | succ fuel ih =>
      cases tasks with
      | nil => exact .rest _
      | cons task tasks =>
          have less := machine.step_work task tasks
          have rest : (machine.step task).1.work ((machine.step task).2.1 ++ tasks) ≤ fuel := by omega
          have first := (Run.rest (busy machine (task :: tasks))).step (.go 0)
            (step_busy machine task tasks)
          exact first.trans (ih rest)

/-- An event fired at once is a run of one thread, to the end of all that it set off. -/
theorem run_fire (machine : StateMachine σ ε) (event : ε) :
    Run { machine } (machine.fire event).2.2 { machine := (machine.fire event).2.1 } := by
  have called : ({ machine } : Shared σ ε).step (.fire 0 event none) =
      some (busy machine [.fire event none], []) := rfl
  have first := (Run.rest ({ machine } : Shared σ ε)).step (.fire 0 event none) called
  have goesOn := run_busy (Nat.le_refl (machine.work [.fire event none]))
  rw [busy_nil] at goesOn
  exact first.trans goesOn

end Shared

theorem can_congr {other : StateMachine σ ε} (table : machine.table = other.table)
    (state : machine.state = other.state) (event : ε) : machine.can event = other.can event := by
  simp only [can, next?, table, state]

/-- What firing an event does: it fails where the table has no move for it and then does nothing
else, and otherwise makes the move that counts. -/
structure Decides [Labelled σ] [Labelled ε] (table : List (Move σ ε)) (machine : StateMachine σ ε)
    (event : ε) (caller : Option Int) : Prop where
  refuses : machine.can event = false ↔
    ∀ move ∈ table, ¬(move.source = machine.state ∧ move.event = event)
  refused : machine.can event = false →
    machine.step (.fire event caller) =
      (machine, giveBackTo caller (machine.outcome event), [.refused event machine.state]) ∧
    (machine.outcome event).result =
      .error (.illegalState (.noTransition (label event) (label machine.state)))
  moved : machine.can event = true → ∃ target,
    Counts table ⟨machine.state, event, target⟩ ∧
    machine.step (.fire event caller) =
      ({ machine with state := target, moves := machine.moves + 1 },
        .announce machine.moves ⟨machine.state, event, target⟩ ::
          giveBackTo caller (machine.outcome event),
        [.applied machine.moves ⟨machine.state, event, target⟩]) ∧
    (machine.outcome event).result = .ok target

theorem decides [Labelled σ] [Labelled ε] (machine : StateMachine σ ε) (event : ε)
    (caller : Option Int) : Decides machine.table machine event caller := by
  refine ⟨?_, ?_, ?_⟩
  · rw [← next?_eq_none_iff_can, next?_eq_none]
  · intro stuck
    have none := next?_eq_none_iff_can.mpr stuck
    simp [step, outcome, none, Outcome.result]
  · intro can
    obtain ⟨target, found⟩ := Option.isSome_iff_exists.mp can
    refine ⟨target, next?_eq_some.mp found, ?_, ?_⟩ <;> simp [step, outcome, found, Outcome.result]

/-- To fire an event and see it through is a run of one thread. The event is decided first; refused, it
sets nothing off, and otherwise all that its move sets off comes to its end. -/
structure SeenThrough [Labelled σ] [Labelled ε] (machine : StateMachine σ ε) (event : ε) : Prop where
  run : Shared.Run { machine } (machine.fire event).2.2 { machine := (machine.fire event).2.1 }
  refused : (∀ move ∈ machine.table, ¬(move.source = machine.state ∧ move.event = event)) →
    (machine.fire event).1.result =
      .error (.illegalState (.noTransition (label event) (label machine.state))) ∧
    (machine.fire event).2 = (machine, [.refused event machine.state])
  moved : ∀ target, Counts machine.table ⟨machine.state, event, target⟩ →
    (machine.fire event).1.result = .ok target ∧
    ∃ rest, (machine.fire event).2.2 =
        .applied machine.moves ⟨machine.state, event, target⟩ :: rest ∧
      Shared.Run
        (.busy { machine with state := target, moves := machine.moves + 1 }
          [.announce machine.moves ⟨machine.state, event, target⟩])
        rest { machine := (machine.fire event).2.1 }

theorem run_nil (machine : StateMachine σ ε) (fuel : Nat) : machine.run fuel [] = (machine, []) := by
  cases fuel <;> rfl

/-- The event is decided first, and what it sets off is then run with fuel enough. -/
theorem exists_fire_eq (machine : StateMachine σ ε) (event : ε) {next : StateMachine σ ε}
    {new : List (Task σ ε)} {entries : List (Entry σ ε)}
    (taken : machine.step (.fire event none) = (next, new, entries)) :
    ∃ fuel, next.work new ≤ fuel ∧
      machine.fire event =
        (machine.outcome event, (next.run fuel new).1, entries ++ (next.run fuel new).2) := by
  have less := machine.step_work (.fire event none) []
  rw [taken, List.append_nil] at less
  obtain ⟨fuel, enough⟩ := Nat.exists_eq_succ_of_ne_zero (Nat.ne_zero_of_lt less)
  refine ⟨fuel, Nat.le_of_lt_succ (enough ▸ less), ?_⟩
  simp only [fire, enough, run, taken, List.append_nil]

theorem seenThrough [Labelled σ] [Labelled ε] (machine : StateMachine σ ε) (event : ε) :
    SeenThrough machine event := by
  refine ⟨Shared.run_fire machine event, ?_, ?_⟩
  · intro stuck
    have none := next?_eq_none.mpr stuck
    have refused : machine.step (.fire event .none) =
        (machine, [], [.refused event machine.state]) := by
      simp only [step, none]
      rfl
    obtain ⟨fuel, -, fired⟩ := machine.exists_fire_eq event refused
    rw [fired, run_nil]
    simp [outcome, none, Outcome.result]
  · intro target counts
    have found := next?_eq_some.mpr counts
    have moved : machine.step (.fire event none) =
        ({ machine with state := target, moves := machine.moves + 1 },
          [.announce machine.moves ⟨machine.state, event, target⟩],
          [.applied machine.moves ⟨machine.state, event, target⟩]) := by
      simp only [step, found]
      rfl
    obtain ⟨fuel, enough, fired⟩ := machine.exists_fire_eq event moved
    have goesOn := Shared.run_busy enough
    rw [Shared.busy_nil] at goesOn
    rw [fired]
    exact ⟨by simp [outcome, found, Outcome.result], _, rfl, goesOn⟩

/-- However threads and subscribers fire events, the moves made are a path of the table from the
initial to the current state; each event is decided by the state it finds, and asking beforehand tells
how, as long as nothing moves in between. To fire an event and see it through is one such run. -/
theorem transitions_form_path [Labelled σ] [Labelled ε] {initial : σ} {table : List (Move σ ε)} :
    (∀ {log : List (Entry σ ε)} {last : Shared σ ε},
      Shared.Run { machine := { state := initial, table } } log last →
        Path table initial (movesOf log) last.machine.state ∧
        Trace.Always (Justified table initial) log ∧
        (∀ event caller, Decides table last.machine event caller) ∧
        ∀ {shown : List (Entry σ ε)} {later : Shared σ ε}, Shared.Run last shown later →
          movesOf shown = [] → ∀ event, later.machine.can event = last.machine.can event) ∧
    ∀ (machine : StateMachine σ ε) (event : ε), SeenThrough machine event := by
  refine ⟨?_, seenThrough⟩
  intro log last run
  obtain ⟨consistent, -, justified⟩ := run.sound
  refine ⟨consistent.path, justified, ?_, ?_⟩
  · intro event caller
    rw [← consistent.fixed]
    exact decides last.machine event caller
  · intro shown later goesOn still event
    have further := (run.trans goesOn).sound.consistent
    refine can_congr (further.fixed.trans consistent.fixed.symm) ?_ event
    rw [further.state, consistent.state]
    simp [stateAfter, still]

/-- Two starts race; a subscriber answers the one that wins with a stop. -/
theorem transitions_form_path_racing :
    ∃ (log : List (Entry RunState RunEvent)) (last : Shared RunState RunEvent),
      Shared.Run { machine := { state := .stopped, table := Lifecycle.initial.table } } log last ∧
      movesOf log = [⟨.stopped, .start, .running⟩, ⟨.running, .stop, .stopped⟩] ∧
      .returned 1 (.refused .start .running) ∈ log ∧
      Path Lifecycle.initial.table .stopped (movesOf log) last.machine.state := by
  have run := (((((((((Shared.Run.rest ({ machine :=
      { state := .stopped, table := Lifecycle.initial.table } } : Shared RunState RunEvent)).step
    (.addMoveHook ⟨0, [[.stop]]⟩) rfl).step
    (.fire 0 .start none) rfl).step (.fire 1 .start (some 1)) rfl).step
    (.go 0) rfl).step (.go 1) rfl).step (.go 0) rfl).step (.go 1) rfl).step
    (.go 0) rfl).step (.go 0) rfl
  exact ⟨_, _, run, rfl, by decide, (transitions_form_path.1 run).1⟩

end FolderWatch.StateMachine
