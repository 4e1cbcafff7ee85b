import FolderWatch.Proofs.Drain.Callers
import FolderWatch.Proofs.Turns

/-!
The starts and stops of a drain that succeed take turns.
-/

namespace FolderWatch.Drain

variable {α : Type} {drain after : Drain α} {action : Action α} {shown : List (Event α)}
variable {turned : List RunEvent}

def Event.turn? : Event α → Option RunEvent
  | .returned .start (.ok _) => some .start
  | .returned .stop (.ok _) => some .stop
  | _ => none

/-- The starts and stops that succeeded, in the order in which they came to their ends. -/
def turns (shown : List (Event α)) : List RunEvent := shown.filterMap Event.turn?

@[simp] theorem turns_append (front tail : List (Event α)) :
    turns (front ++ tail) = turns front ++ turns tail :=
  List.filterMap_append ..

theorem turns_of_unended (unended : ∀ event ∈ shown, event.result? = none) : turns shown = [] := by
  rw [turns, List.filterMap_eq_nil_iff]
  intro event member
  have none := unended event member
  cases event with
  | returned => simp [Event.result?] at none
  | _ => rfl

/-- The start is made, and only the slot is still to be filled. -/
def Control.isStarted : Control → Bool
  | started _ => true
  | _ => false

def Counted (turned : List RunEvent) (drain : Drain α) : Prop :=
  Tally turned drain.isRunning drain.control.isStarted

theorem Counted.quiet (counted : Counted turned after) (quiet : turns shown = []) :
    Counted (turned ++ turns shown) after := by
  rwa [quiet, List.append_nil]

theorem turns_refused {operation : Operation} {result : Except Fault Unit}
    (unchanged : operation = .drop ∨ ∃ fault, result = .error fault) :
    turns [(.returned operation result : Event α)] = [] := by
  rcases unchanged with rfl | ⟨fault, rfl⟩
  · rfl
  · cases operation <;> rfl

theorem Counted.callerMove (coherent : Coherent drain) (counted : Counted turned drain)
    (move : CallerMove drain action after shown) : Counted (turned ++ turns shown) after := by
  have agrees := coherent.agrees
  have tally : Tally turned drain.isRunning drain.control.isStarted := counted
  cases move with
  | refused _ unchanged => exact counted.quiet (turns_refused unchanged)
  | startCalled control | stopCalled control | spawned control | slotEmpty control
  | slotTaken control | closed control | joined control | gaveUp control =>
      rw [control] at tally
      exact Counted.quiet tally rfl
  | startRefused control stuck => simp [coherent.start_moves control] at stuck
  | startMoved control moved =>
      rw [control] at agrees tally
      cases (coherent.start_moves control).symm.trans moved
      rw [agrees.1] at tally
      exact Counted.quiet tally.moves rfl
  | started control =>
      rw [control] at agrees tally
      rw [agrees.1] at tally
      have runs : drain.isRunning = true := agrees.1
      show Tally (turned ++ [.start]) drain.isRunning false
      rw [runs]
      exact tally.starts
  | stopRefused control stuck => simp [coherent.stop_moves control] at stuck
  | stopped control moved =>
      rw [control] at agrees tally
      cases (coherent.stop_moves control).symm.trans moved
      rw [agrees.1] at tally
      exact tally.stops

theorem Counted.step (coherent : Coherent drain) (counted : Counted turned drain)
    (taken : drain.step action = some (after, shown)) : Counted (turned ++ turns shown) after := by
  cases action with
  | push item =>
      cases taken
      exact counted.quiet rfl
  | call operation => exact counted.callerMove coherent (call_move taken)
  | control signal => exact counted.callerMove coherent (control_move taken)
  | work index signal =>
      obtain ⟨worker, phase, queue, -, move, rfl⟩ := work_move taken
      exact Counted.quiet counted (turns_of_unended move.result?)

theorem Counted.run {stopTimeout : TimeSpan} {last : Drain α}
    (run : Run { stopTimeout } shown last) : Counted (turns shown) last := by
  induction run with
  | rest => exact .nil
  | step action run taken ih =>
      rw [turns_append]
      exact ih.step run.coherent taken

end FolderWatch.Drain
