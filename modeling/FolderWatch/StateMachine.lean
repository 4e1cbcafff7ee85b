import FolderWatch.Fault
import FolderWatch.LogLine

/-!
A controller over a fixed table of moves. Subscribers are told of every move after it is made and
may fire events themselves, so telling is a stack of tasks: what a subscriber sets off is finished
before the next subscriber hears of the move that set it off.
-/

namespace FolderWatch

class Labelled (α : Type) where
  label : α → String

instance : Labelled Int := ⟨toString⟩

export Labelled (label)

structure Move (σ ε : Type) where
  source : σ
  event : ε
  target : σ
  deriving DecidableEq, Repr

/-- A subscriber. Each call takes the first of its reactions and fires the events in it; a call
beyond the last reaction fires none. -/
structure Hook (ε : Type) where
  id : Int
  reactions : List (List ε) := []
  deriving DecidableEq, Repr

namespace Hook

variable {ε : Type}

def reaction (hook : Hook ε) : List ε := hook.reactions.headD []

def afterCall (hook : Hook ε) : Hook ε := { hook with reactions := hook.reactions.tail }

/-- The events that it has yet to fire. -/
def pending (hook : Hook ε) : List ε := hook.reactions.flatten

theorem reaction_append_pending (hook : Hook ε) :
    hook.reaction ++ hook.afterCall.pending = hook.pending := by
  rcases hook with ⟨id, _ | ⟨first, rest⟩⟩ <;> rfl

/-- A call takes the events that it fires out of those still to be fired. -/
theorem pending_set {hooks : List (Hook ε)} {index : Nat} {hook : Hook ε}
    (present : hooks[index]? = some hook) :
    ((hooks.set index hook.afterCall).flatMap pending).length + hook.reaction.length =
      (hooks.flatMap pending).length := by
  induction hooks generalizing index with
  | nil => simp at present
  | cons first rest ih =>
      cases index with
      | zero =>
          simp only [List.getElem?_cons_zero, Option.some.injEq] at present
          subst present
          simp only [List.set_cons_zero, List.flatMap_cons, ← first.reaction_append_pending,
            List.length_append]
          omega
      | succ index =>
          have := ih (by simpa using present)
          simp only [List.set_cons_succ, List.flatMap_cons, List.length_append]
          omega

end Hook

structure StateMachine (σ ε : Type) where
  state : σ
  /-- Of several moves with one source and event the last counts. -/
  table : List (Move σ ε)
  terminal : List σ := []
  moves : Nat := 0
  onMove : List (Hook ε) := []
  onTerminal : List (Hook ε) := []
  deriving Repr

namespace StateMachine

variable {σ ε : Type}

inductive Outcome (σ ε : Type) where
  | moved (target : σ)
  | refused (event : ε) (state : σ)
  deriving DecidableEq, Repr

def Outcome.result [Labelled σ] [Labelled ε] : Outcome σ ε → Except Fault σ
  | .moved target => .ok target
  | .refused event state => .error (.illegalState (.noTransition (label event) (label state)))

inductive Entry (σ ε : Type) where
  | applied (serial : Nat) (move : Move σ ε)
  | refused (event : ε) (state : σ)
  /-- Subscriber `index` heard of move `serial` while the machine was in state `current`. -/
  | told (serial index : Nat) (id : Int) (move : Move σ ε) (current : σ)
  | toldTerminal (serial index : Nat) (id : Int) (reached current : σ)
  | returned (id : Int) (outcome : Outcome σ ε)
  deriving DecidableEq, Repr

inductive Task (σ ε : Type) where
  | fire (event : ε) (caller : Option Int)
  | announce (serial : Nat) (move : Move σ ε)
  | tell (serial index : Nat) (move : Move σ ε)
  | announceTerminal (serial : Nat) (reached : σ)
  | tellTerminal (serial index : Nat) (reached : σ)
  | giveBack (id : Int) (outcome : Outcome σ ε)
  deriving DecidableEq, Repr

def logLine [Labelled σ] [Labelled ε] : Entry σ ε → Option LogLine
  | .applied _ move =>
      some ⟨.debug, "Lifecycle " ++ label move.source ++ " -(" ++ label move.event ++ ")-> " ++
        label move.target⟩
  | _ => none

variable [DecidableEq σ] [DecidableEq ε]

def next? (machine : StateMachine σ ε) (event : ε) : Option σ :=
  (machine.table.reverse.find? fun move =>
    move.source = machine.state ∧ move.event = event).map Move.target

def can (machine : StateMachine σ ε) (event : ε) : Bool := (machine.next? event).isSome

def outcome (machine : StateMachine σ ε) (event : ε) : Outcome σ ε :=
  match machine.next? event with
  | some target => .moved target
  | none => .refused event machine.state

def giveBackTo (caller : Option Int) (outcome : Outcome σ ε) : List (Task σ ε) :=
  caller.toList.map (.giveBack · outcome)

def step (machine : StateMachine σ ε) :
    Task σ ε → StateMachine σ ε × List (Task σ ε) × List (Entry σ ε)
  | .fire event caller =>
      match machine.next? event with
      | some target =>
          let move := ⟨machine.state, event, target⟩
          ({ machine with state := target, moves := machine.moves + 1 },
            .announce machine.moves move :: giveBackTo caller (.moved target),
            [.applied machine.moves move])
      | none =>
          (machine, giveBackTo caller (.refused event machine.state),
            [.refused event machine.state])
  | .announce serial move =>
      (machine, (List.range machine.onMove.length).map (.tell serial · move) ++
        [.announceTerminal serial move.target], [])
  | .tell serial index move =>
      match machine.onMove[index]? with
      | none => (machine, [], [])
      | some hook =>
          ({ machine with onMove := machine.onMove.set index hook.afterCall },
            hook.reaction.map (.fire · (some hook.id)),
            [.told serial index hook.id move machine.state])
  | .announceTerminal serial reached =>
      if reached ∈ machine.terminal then
        (machine, (List.range machine.onTerminal.length).map (.tellTerminal serial · reached), [])
      else (machine, [], [])
  | .tellTerminal serial index reached =>
      match machine.onTerminal[index]? with
      | none => (machine, [], [])
      | some hook =>
          ({ machine with onTerminal := machine.onTerminal.set index hook.afterCall },
            hook.reaction.map (.fire · (some hook.id)),
            [.toldTerminal serial index hook.id reached machine.state])
  | .giveBack id outcome => (machine, [], [.returned id outcome])

def run : (fuel : Nat) → StateMachine σ ε → List (Task σ ε) → StateMachine σ ε × List (Entry σ ε)
  | 0, machine, _ => (machine, [])
  | _ + 1, machine, [] => (machine, [])
  | fuel + 1, machine, task :: tasks =>
      let (machine, new, entries) := machine.step task
      let (machine, rest) := run fuel machine (new ++ tasks)
      (machine, entries ++ rest)

def pending (machine : StateMachine σ ε) : Nat :=
  (machine.onMove.flatMap Hook.pending).length + (machine.onTerminal.flatMap Hook.pending).length

/-- The weight of one event: more than all it sets off, the events of subscribers apart. -/
def unit (machine : StateMachine σ ε) : Nat :=
  machine.onMove.length + machine.onTerminal.length + 5

def taskWeight (machine : StateMachine σ ε) : Task σ ε → Nat
  | .fire .. => machine.unit
  | .announce .. => machine.onMove.length + machine.onTerminal.length + 3
  | .announceTerminal .. => machine.onTerminal.length + 1
  | .tell .. => 1
  | .tellTerminal .. => 1
  | .giveBack .. => 1

/-- How much there is to do; each step leaves less. -/
def work (machine : StateMachine σ ε) (tasks : List (Task σ ε)) : Nat :=
  tasks.foldr (fun task rest => machine.taskWeight task + rest) (machine.unit * machine.pending)

def fire (machine : StateMachine σ ε) (event : ε) :
    Outcome σ ε × StateMachine σ ε × List (Entry σ ε) :=
  let tasks := [.fire event none]
  (machine.outcome event, run (machine.work tasks) machine tasks)

def addMoveHook (machine : StateMachine σ ε) (hook : Hook ε) : StateMachine σ ε :=
  { machine with onMove := machine.onMove ++ [hook] }

def addTerminalHook (machine : StateMachine σ ε) (hook : Hook ε) : StateMachine σ ε :=
  { machine with onTerminal := machine.onTerminal ++ [hook] }

def addTerminalStates (machine : StateMachine σ ε) (states : List σ) : StateMachine σ ε :=
  { machine with terminal := machine.terminal ++ states }

section Work

omit [DecidableEq σ] [DecidableEq ε]

theorem work_cons (machine : StateMachine σ ε) (task : Task σ ε) (tasks : List (Task σ ε)) :
    machine.work (task :: tasks) = machine.taskWeight task + machine.work tasks := rfl

/-- Tasks set off alike weigh alike. -/
theorem work_map_append {α : Type} (machine : StateMachine σ ε) (task : α → Task σ ε)
    {weight : Nat} (alike : ∀ item, machine.taskWeight (task item) = weight) (items : List α)
    (tasks : List (Task σ ε)) :
    machine.work (items.map task ++ tasks) = items.length * weight + machine.work tasks := by
  induction items with
  | nil => simp
  | cons item rest ih =>
      rw [List.map_cons, List.cons_append, work_cons, alike, ih, List.length_cons, Nat.succ_mul]
      omega

theorem work_giveBackTo (machine : StateMachine σ ε) (caller : Option Int) (outcome : Outcome σ ε)
    (tasks : List (Task σ ε)) :
    machine.work (giveBackTo caller outcome ++ tasks) ≤ 1 + machine.work tasks := by
  have back := machine.work_map_append (.giveBack · outcome) (fun _ => rfl)
    caller.toList tasks
  have one : caller.toList.length ≤ 1 := by cases caller <;> simp
  rw [giveBackTo, back, Nat.mul_one]
  omega

/-- With as many subscribers every task weighs the same, so only what is pending tells the work. -/
theorem work_eq {machine next : StateMachine σ ε}
    (onMove : next.onMove.length = machine.onMove.length)
    (onTerminal : next.onTerminal.length = machine.onTerminal.length) (tasks : List (Task σ ε)) :
    next.work tasks + machine.unit * machine.pending =
      machine.work tasks + machine.unit * next.pending := by
  have same : next.unit = machine.unit := by rw [unit, onMove, onTerminal, unit]
  induction tasks with
  | nil => simp only [work, List.foldr_nil, same, Nat.add_comm]
  | cons task rest ih =>
      have weight : next.taskWeight task = machine.taskWeight task := by
        cases task <;> simp [taskWeight, same, onMove, onTerminal]
      rw [work_cons, work_cons, weight]
      omega

/-- The events that a subscriber fires when called were pending before. -/
theorem work_called {machine called : StateMachine σ ε} {hook : Hook ε}
    (pending : called.pending + hook.reaction.length = machine.pending)
    (onMove : called.onMove.length = machine.onMove.length)
    (onTerminal : called.onTerminal.length = machine.onTerminal.length) (tasks : List (Task σ ε)) :
    called.work (hook.reaction.map (.fire · (some hook.id)) ++ tasks) = machine.work tasks := by
  have same : called.unit = machine.unit := by rw [unit, onMove, onTerminal, unit]
  have kept := work_eq onMove onTerminal tasks
  have fires := called.work_map_append (.fire · (some hook.id)) (fun _ => same) hook.reaction
    tasks
  rw [fires, Nat.mul_comm]
  rw [← pending, Nat.mul_add] at kept
  omega

theorem work_told {machine : StateMachine σ ε} {index : Nat} {hook : Hook ε}
    (present : machine.onMove[index]? = some hook) (tasks : List (Task σ ε)) :
    ({ machine with onMove := machine.onMove.set index hook.afterCall } : StateMachine σ ε).work
      (hook.reaction.map (.fire · (some hook.id)) ++ tasks) = machine.work tasks := by
  have shrunk := Hook.pending_set present
  apply work_called
  · simp only [StateMachine.pending]
    omega
  · exact List.length_set
  · rfl

theorem work_toldTerminal {machine : StateMachine σ ε} {index : Nat} {hook : Hook ε}
    (present : machine.onTerminal[index]? = some hook) (tasks : List (Task σ ε)) :
    ({ machine with onTerminal := machine.onTerminal.set index hook.afterCall } :
      StateMachine σ ε).work
      (hook.reaction.map (.fire · (some hook.id)) ++ tasks) = machine.work tasks := by
  have shrunk := Hook.pending_set present
  apply work_called
  · simp only [StateMachine.pending]
    omega
  · rfl
  · exact List.length_set

end Work

theorem step_work (machine : StateMachine σ ε) (task : Task σ ε) (tasks : List (Task σ ε)) :
    (machine.step task).1.work ((machine.step task).2.1 ++ tasks) <
      machine.work (task :: tasks) := by
  rw [work_cons]
  cases task with
  | fire event caller =>
      simp only [step, taskWeight, unit]
      split <;> dsimp only
      · rename_i target _
        have back := work_giveBackTo { machine with state := target, moves := machine.moves + 1 }
          caller (.moved target) tasks
        have kept : ({ machine with state := target, moves := machine.moves + 1 } :
            StateMachine σ ε).work tasks = machine.work tasks := rfl
        rw [List.cons_append, work_cons]
        simp only [taskWeight]
        omega
      · have back := machine.work_giveBackTo caller (.refused event machine.state) tasks
        omega
  | announce serial move =>
      have tellAll := machine.work_map_append (.tell serial · move) (fun _ => rfl)
        (List.range machine.onMove.length) (.announceTerminal serial move.target :: tasks)
      simp only [step, List.append_assoc, List.singleton_append, tellAll, work_cons, taskWeight,
        List.length_range]
      omega
  | tell serial index move =>
      simp only [step, taskWeight]
      split
      · simp
      · rename_i hook present
        rw [work_told present]
        omega
  | announceTerminal serial reached =>
      simp only [step, taskWeight]
      split
      · have tellAll := machine.work_map_append (.tellTerminal serial · reached) (fun _ => rfl)
          (List.range machine.onTerminal.length) tasks
        rw [tellAll, List.length_range, Nat.mul_one]
        omega
      · show machine.work tasks < _
        omega
  | tellTerminal serial index reached =>
      simp only [step, taskWeight]
      split
      · simp
      · rename_i hook present
        rw [work_toldTerminal present]
        omega
  | giveBack id outcome => simp [step, taskWeight]

end StateMachine

end FolderWatch
