import FolderWatch.Fault
import FolderWatch.StateMachine

/-!
The start/stop machine of everything that runs in the background.
-/

namespace FolderWatch

inductive RunState where
  | stopped
  | running
  deriving DecidableEq, Repr, Inhabited

inductive RunEvent where
  | start
  | stop
  deriving DecidableEq, Repr, Inhabited

namespace RunState

def all : List RunState := [stopped, running]

def name : RunState → String
  | stopped => "Stopped"
  | running => "Running"

def ofName? (name : String) : Option RunState := all.find? fun state => state.name = name

instance : Labelled RunState := ⟨name⟩

end RunState

namespace RunEvent

def all : List RunEvent := [start, stop]

def name : RunEvent → String
  | start => "Start"
  | stop => "Stop"

def ofName? (name : String) : Option RunEvent := all.find? fun event => event.name = name

instance : Labelled RunEvent := ⟨name⟩

end RunEvent

abbrev Lifecycle := StateMachine RunState RunEvent

namespace Lifecycle

/-- Stopped at first; arriving there again is what its terminal subscribers hear of. -/
def initial : Lifecycle where
  state := .stopped
  table := [⟨.stopped, .start, .running⟩, ⟨.running, .stop, .stopped⟩]
  terminal := [.stopped]

def isRunning (lifecycle : Lifecycle) : Bool := lifecycle.state = .running

def move? (lifecycle : Lifecycle) (event : RunEvent) : Option Lifecycle :=
  (lifecycle.next? event).map fun state => { lifecycle with state }

def refusal (lifecycle : Lifecycle) (event : RunEvent) : Fault :=
  .illegalState (.noTransition event.name lifecycle.state.name)

variable {lifecycle : Lifecycle}

section Kept

-- Whoever keeps a lifecycle only ever moves it, so that it is the initial one but for its state.
variable (kept : lifecycle = { initial with
  state := if lifecycle.isRunning then .running else .stopped })

include kept

theorem eq_initial (stopped : lifecycle.isRunning = false) : lifecycle = .initial := by
  rw [kept, stopped]
  rfl

theorem eq_running (running : lifecycle.isRunning = true) :
    lifecycle = { initial with state := .running } := by
  rw [kept, running]
  rfl

theorem can_start_iff : lifecycle.can .start = true ↔ lifecycle.isRunning = false := by
  cases runs : lifecycle.isRunning with
  | false => simp [eq_initial kept runs, show initial.can .start = true by decide]
  | true =>
      have cannot : ({ initial with state := .running } : Lifecycle).can .start = false := by decide
      simp [eq_running kept runs, cannot]

theorem can_stop_iff : lifecycle.can .stop = true ↔ lifecycle.isRunning = true := by
  cases runs : lifecycle.isRunning with
  | false => simp [eq_initial kept runs, show initial.can .stop = false by decide]
  | true =>
      have can : ({ initial with state := .running } : Lifecycle).can .stop = true := by decide
      simp [eq_running kept runs, can]

theorem move?_start (stopped : lifecycle.isRunning = false) :
    lifecycle.move? .start = some { initial with state := .running } := by
  rw [eq_initial kept stopped]
  rfl

theorem move?_stop (running : lifecycle.isRunning = true) :
    lifecycle.move? .stop = some .initial := by
  rw [eq_running kept running]
  rfl

end Kept

end Lifecycle

def Lifecycle.moveLine (before : Lifecycle) (event : RunEvent) (after : Lifecycle) : LogLine :=
  ⟨.debug, "Lifecycle " ++ before.state.name ++ " -(" ++ event.name ++ ")-> " ++ after.state.name⟩

end FolderWatch
