import FolderWatch.StateMachine

/-!
What the single tasks of a machine do, and which move of a table counts.
-/

namespace FolderWatch.StateMachine

variable {σ ε : Type}

/-- The last move of the table with its source and event. -/
def Counts (table : List (Move σ ε)) (move : Move σ ε) : Prop :=
  ∃ front back, table = front ++ move :: back ∧
    ∀ later ∈ back, ¬(later.source = move.source ∧ later.event = move.event)

variable [DecidableEq σ] [DecidableEq ε] {machine : StateMachine σ ε} {event : ε}

theorem next?_eq_some {target : σ} :
    machine.next? event = some target ↔
      Counts machine.table ⟨machine.state, event, target⟩ := by
  simp only [next?, Option.map_eq_some_iff, List.find?_eq_some_iff_append, decide_eq_true_eq,
    Bool.not_eq_true', decide_eq_false_iff_not]
  constructor
  · rintro ⟨⟨source, given, reached⟩, ⟨⟨rfl, rfl⟩, back, front, split, none⟩, rfl⟩
    refine ⟨front.reverse, back.reverse, ?_, by simpa using none⟩
    simpa using congrArg List.reverse split
  · rintro ⟨front, back, split, none⟩
    refine ⟨⟨machine.state, event, target⟩, ⟨⟨rfl, rfl⟩, back.reverse, front.reverse, ?_, ?_⟩, rfl⟩
    · simp [split]
    · simpa using none

theorem next?_eq_none :
    machine.next? event = none ↔
      ∀ move ∈ machine.table, ¬(move.source = machine.state ∧ move.event = event) := by
  simp [next?, List.find?_eq_none]

theorem next?_eq_none_iff_can : machine.next? event = none ↔ machine.can event = false := by
  cases found : machine.next? event <;> simp [can, found]

/-- What a task does to the machine, what it leaves to be done, and what shows. -/
inductive TaskStep (machine : StateMachine σ ε) :
    Task σ ε → StateMachine σ ε → List (Task σ ε) → List (Entry σ ε) → Prop
  | applies {event : ε} {caller : Option Int} {target : σ}
      (found : machine.next? event = some target) :
      TaskStep machine (.fire event caller)
        { machine with state := target, moves := machine.moves + 1 }
        (.announce machine.moves ⟨machine.state, event, target⟩ ::
          giveBackTo caller (.moved target))
        [.applied machine.moves ⟨machine.state, event, target⟩]
  | refuses {event : ε} {caller : Option Int} (stuck : machine.next? event = none) :
      TaskStep machine (.fire event caller) machine
        (giveBackTo caller (.refused event machine.state)) [.refused event machine.state]
  | announces {serial : Nat} {move : Move σ ε} :
      TaskStep machine (.announce serial move) machine
        ((List.range machine.onMove.length).map (.tell serial · move) ++
          [.announceTerminal serial move.target]) []
  | tells {serial index : Nat} {move : Move σ ε} {hook : Hook ε}
      (here : machine.onMove[index]? = some hook) :
      TaskStep machine (.tell serial index move)
        { machine with onMove := machine.onMove.set index hook.afterCall }
        (hook.reaction.map (.fire · (some hook.id)))
        [.told serial index hook.id move machine.state]
  | tellsNobody {serial index : Nat} {move : Move σ ε} (gone : machine.onMove[index]? = none) :
      TaskStep machine (.tell serial index move) machine [] []
  | announcesTerminal {serial : Nat} {reached : σ} (terminal : reached ∈ machine.terminal) :
      TaskStep machine (.announceTerminal serial reached) machine
        ((List.range machine.onTerminal.length).map (.tellTerminal serial · reached)) []
  | passes {serial : Nat} {reached : σ} (ordinary : reached ∉ machine.terminal) :
      TaskStep machine (.announceTerminal serial reached) machine [] []
  | tellsTerminal {serial index : Nat} {reached : σ} {hook : Hook ε}
      (here : machine.onTerminal[index]? = some hook) :
      TaskStep machine (.tellTerminal serial index reached)
        { machine with onTerminal := machine.onTerminal.set index hook.afterCall }
        (hook.reaction.map (.fire · (some hook.id)))
        [.toldTerminal serial index hook.id reached machine.state]
  | tellsNobodyTerminal {serial index : Nat} {reached : σ}
      (gone : machine.onTerminal[index]? = none) :
      TaskStep machine (.tellTerminal serial index reached) machine [] []
  | givesBack {id : Int} {outcome : Outcome σ ε} :
      TaskStep machine (.giveBack id outcome) machine [] [.returned id outcome]

theorem step_taskStep {after : StateMachine σ ε} {task : Task σ ε} {new : List (Task σ ε)}
    {entries : List (Entry σ ε)} (taken : machine.step task = (after, new, entries)) :
    TaskStep machine task after new entries := by
  cases task with
  | fire event caller =>
      simp only [step] at taken
      split at taken <;> cases taken
      · rename_i found
        exact .applies found
      · rename_i stuck
        exact .refuses stuck
  | announce serial move =>
      cases taken
      exact .announces
  | tell serial index move =>
      simp only [step] at taken
      split at taken <;> cases taken
      · rename_i gone
        exact .tellsNobody gone
      · rename_i here
        exact .tells here
  | announceTerminal serial reached =>
      simp only [step] at taken
      split at taken <;> cases taken
      · rename_i terminal
        exact .announcesTerminal terminal
      · rename_i ordinary
        exact .passes ordinary
  | tellTerminal serial index reached =>
      simp only [step] at taken
      split at taken <;> cases taken
      · rename_i gone
        exact .tellsNobodyTerminal gone
      · rename_i here
        exact .tellsTerminal here
  | giveBack id outcome =>
      cases taken
      exact .givesBack

end FolderWatch.StateMachine
