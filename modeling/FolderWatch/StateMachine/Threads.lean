import FolderWatch.StateMachine

/-!
Several threads may fire events at one machine at the same time. Looking a move up and making it is
one step. Telling the subscribers comes after it, step by step, and other threads may come in between;
so each thread has a stack of tasks of its own.
-/

namespace FolderWatch.StateMachine

structure Shared (σ ε : Type) where
  machine : StateMachine σ ε
  tasksOf : Nat → List (Task σ ε) := fun _ => []

namespace Shared

variable {σ ε : Type}

inductive Action (σ ε : Type) where
  /-- A thread fires an event, be it from within a subscriber that it is telling. -/
  | fire (thread : Nat) (event : ε) (caller : Option Int)
  | go (thread : Nat)
  | addMoveHook (hook : Hook ε)
  | addTerminalHook (hook : Hook ε)
  | addTerminalStates (states : List σ)
  deriving Repr

def setStack (shared : Shared σ ε) (thread : Nat) (tasks : List (Task σ ε)) : Shared σ ε :=
  { shared with tasksOf := fun other => if other = thread then tasks else shared.tasksOf other }

variable [DecidableEq σ] [DecidableEq ε]

def step (shared : Shared σ ε) : Action σ ε → Option (Shared σ ε × List (Entry σ ε))
  | .fire thread event caller =>
      some (shared.setStack thread (.fire event caller :: shared.tasksOf thread), [])
  | .go thread =>
      match shared.tasksOf thread with
      | [] => none
      | task :: tasks =>
          let (machine, new, entries) := shared.machine.step task
          some ({ shared.setStack thread (new ++ tasks) with machine }, entries)
  | .addMoveHook hook => some ({ shared with machine := shared.machine.addMoveHook hook }, [])
  | .addTerminalHook hook =>
      some ({ shared with machine := shared.machine.addTerminalHook hook }, [])
  | .addTerminalStates states =>
      some ({ shared with machine := shared.machine.addTerminalStates states }, [])

inductive Run : Shared σ ε → List (Entry σ ε) → Shared σ ε → Prop
  | rest (shared : Shared σ ε) : Run shared [] shared
  | step {first middle last : Shared σ ε} {log more : List (Entry σ ε)} (action : Action σ ε)
      (run : Run first log middle) (taken : middle.step action = some (last, more)) :
      Run first (log ++ more) last

end Shared

end FolderWatch.StateMachine
