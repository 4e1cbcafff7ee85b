import FolderWatch.Proofs.StateMachine.Paths

/-!
What one thread does, task by task: each task is done with all that it sets off before the next one is
taken up. Seen so, a move is made with all moves that subscribers make on hearing of it inside it.
-/

namespace FolderWatch.StateMachine

variable {σ ε : Type}

/-- The moves made, each with its serial. -/
def made (log : List (Entry σ ε)) : List (Nat × Move σ ε) :=
  log.filterMap fun entry =>
    match entry with
    | .applied serial move => some (serial, move)
    | _ => none

/-- The moves that a subscriber was told of, in the order in which it was. -/
def heard (index : Nat) (log : List (Entry σ ε)) : List (Nat × Move σ ε) :=
  log.filterMap fun entry =>
    match entry with
    | .told serial listener _ move _ => if listener = index then some (serial, move) else none
    | _ => none

/-- Some subscriber `index` is told of move `serial`. -/
def Tells (serial index : Nat) (log : List (Entry σ ε)) : Prop :=
  ∃ id move current, .told serial index id move current ∈ log

@[simp] theorem made_append (first second : List (Entry σ ε)) :
    made (first ++ second) = made first ++ made second :=
  List.filterMap_append

@[simp] theorem heard_append (index : Nat) (first second : List (Entry σ ε)) :
    heard index (first ++ second) = heard index first ++ heard index second :=
  List.filterMap_append

theorem movesOf_eq (log : List (Entry σ ε)) : movesOf log = (made log).map Prod.snd := by
  rw [made, List.map_filterMap, movesOf]
  congr 1
  funext entry
  cases entry <;> rfl

theorem tells_append {serial index : Nat} {first second : List (Entry σ ε)} :
    Tells serial index (first ++ second) ↔ Tells serial index first ∨ Tells serial index second := by
  simp only [Tells, List.mem_append, exists_or]

theorem not_tells_nil {serial index : Nat} : ¬Tells serial index ([] : List (Entry σ ε)) := by
  simp [Tells]

theorem Path.append {table : List (Move σ ε)} {start between final : σ} {moves more : List (Move σ ε)}
    (path : Path table start moves between) (further : Path table between more final) :
    Path table start (moves ++ more) final := by
  induction further with
  | rest => simpa using path
  | step _ here counts ih => simpa using ih.step here counts

variable [DecidableEq σ] [DecidableEq ε]

/-- The tasks are done, each with all that it sets off. -/
inductive Does : StateMachine σ ε → List (Task σ ε) → List (Entry σ ε) → StateMachine σ ε → Prop
  | rest (machine : StateMachine σ ε) : Does machine [] [] machine
  | step {machine after middle last : StateMachine σ ε} {task : Task σ ε}
      {new tasks : List (Task σ ε)} {entries inner outer : List (Entry σ ε)}
      (taken : TaskStep machine task after new entries) (within : Does after new inner middle)
      (goesOn : Does middle tasks outer last) :
      Does machine (task :: tasks) (entries ++ inner ++ outer) last

variable {machine middle last : StateMachine σ ε} {log inner outer : List (Entry σ ε)}
variable {tasks first second : List (Task σ ε)}

theorem Does.append (front : Does machine first inner middle)
    (back : Does middle second outer last) : Does machine (first ++ second) (inner ++ outer) last := by
  induction front with
  | rest => exact back
  | step taken within _ _ ih => simpa using Does.step taken within (ih back)

theorem Does.split (does : Does machine (first ++ second) log last) :
    ∃ middle inner outer, log = inner ++ outer ∧ Does machine first inner middle ∧
      Does middle second outer last := by
  induction first generalizing machine log with
  | nil => exact ⟨machine, [], log, rfl, .rest machine, does⟩
  | cons task tasks ih =>
      cases does with
      | step taken within goesOn =>
          obtain ⟨middle, inner, outer, rfl, front, back⟩ := ih goesOn
          exact ⟨middle, _, outer, by simp, .step taken within front, back⟩

theorem does_run {fuel : Nat} (enough : machine.work tasks ≤ fuel) :
    Does machine tasks (machine.run fuel tasks).2 (machine.run fuel tasks).1 := by
  induction fuel generalizing machine tasks with
  | zero =>
      cases tasks with
      | nil => exact .rest machine
      | cons task tasks =>
          have less := machine.step_work task tasks
          omega
  | succ fuel ih =>
      cases tasks with
      | nil => exact .rest machine
      | cons task tasks =>
          have less := machine.step_work task tasks
          have done : Does (machine.step task).1 ((machine.step task).2.1 ++ tasks) _ _ := ih (by omega)
          obtain ⟨middle, inner, outer, shown, within, goesOn⟩ := done.split
          have whole := Does.step (step_taskStep rfl) within goesOn
          rw [List.append_assoc, ← shown] at whole
          exact whole

/-- Events fired one after another, each after all that the one before it set off. -/
def fireAll (machine : StateMachine σ ε) : List ε → StateMachine σ ε × List (Entry σ ε)
  | [] => (machine, [])
  | event :: events =>
      let (_, next, log) := machine.fire event
      let (last, more) := next.fireAll events
      (last, log ++ more)

theorem does_fireAll (machine : StateMachine σ ε) (events : List ε) :
    Does machine (events.map (.fire · none)) (machine.fireAll events).2
      (machine.fireAll events).1 := by
  induction events generalizing machine with
  | nil => exact .rest machine
  | cons event events ih =>
      have first : Does machine [.fire event none] (machine.fire event).2.2 (machine.fire event).2.1 :=
        does_run (Nat.le_refl _)
      exact first.append (ih (machine.fire event).2.1)

theorem TaskStep.onMove_length {after : StateMachine σ ε} {task : Task σ ε}
    {new : List (Task σ ε)} {entries : List (Entry σ ε)}
    (step : TaskStep machine task after new entries) :
    after.onMove.length = machine.onMove.length := by
  cases step with
  | tells => exact List.length_set
  | _ => rfl

theorem Does.onMove_length (does : Does machine tasks log last) :
    last.onMove.length = machine.onMove.length := by
  induction does with
  | rest => rfl
  | step taken _ _ within goesOn => rw [goesOn, within, taken.onMove_length]

theorem Does.table_eq (does : Does machine tasks log last) : last.table = machine.table := by
  induction does with
  | rest => rfl
  | step taken _ _ within goesOn =>
      rw [goesOn, within]
      cases taken <;> rfl

theorem Does.path (does : Does machine tasks log last) :
    Path machine.table machine.state (movesOf log) last.state := by
  induction does with
  | rest => exact .rest _
  | @step machine after middle last task new tasks entries inner outer taken within goesOn ih ih' =>
      have table : after.table = machine.table := by cases taken <;> rfl
      rw [within.table_eq, table] at ih'
      rw [table] at ih
      rw [movesOf_append, movesOf_append]
      refine Path.append (Path.append ?_ ih) ih'
      cases taken with
      | applies found => exact Path.step (.rest machine.state) rfl (next?_eq_some.mp found)
      | _ => exact .rest _

end FolderWatch.StateMachine
