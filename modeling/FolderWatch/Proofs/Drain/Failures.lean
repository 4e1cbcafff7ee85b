import FolderWatch.Proofs.Drain.Callers
import FolderWatch.Proofs.Operations

/-!
The operations of a drain fail at once or not at all.
-/

namespace FolderWatch.Drain

variable {α : Type} {drain after : Drain α} {action : Action α} {shown : List (Event α)}

def Event.failed? : Event α → Option Bool
  | .returned _ (.error _) => some true
  | .returned _ (.ok _) => some false
  | _ => none

theorem findSome?_failed? (unended : ∀ event ∈ shown, event.result? = none) :
    shown.findSome? Event.failed? = none := by
  rw [List.findSome?_eq_none_iff]
  intro event member
  have none := unended event member
  cases event with
  | returned => simp [Event.result?] at none
  | _ => rfl

/-- The callback is called. -/
def Event.IsCall : Event α → Prop
  | .began .. => True
  | _ => False

def Action.isCallers : Action α → Bool
  | .call _ | .control _ => true
  | _ => false

def machine (α : Type) : Machine (Drain α) (Action α) (Event α) :=
  ⟨step, Action.isCallers, Event.failed?⟩

def idle (drain : Drain α) : Drain α := { drain with control := .free }

theorem idle_of_free (free : drain.control = .free) : drain.idle = drain := by
  cases drain
  cases free
  rfl

theorem step_aside (aside : action.isCallers = false)
    (taken : drain.step action = some (after, shown)) :
    after.control = drain.control ∧ shown.findSome? Event.failed? = none := by
  cases action with
  | push item =>
      cases taken
      exact ⟨rfl, rfl⟩
  | call | control => simp [Action.isCallers] at aside
  | work index signal =>
      obtain ⟨worker, phase, queue, -, move, rfl⟩ := work_move taken
      exact ⟨rfl, findSome?_failed? move.result?⟩

theorem step_callers (callers : action.isCallers = true)
    (taken : drain.step action = some (after, shown)) : CallerMove drain action after shown := by
  cases action with
  | call operation => exact call_move taken
  | control signal => exact control_move taken
  | push | work => simp [Action.isCallers] at callers

theorem CallerMove.goesOn (move : CallerMove drain action after shown)
    (unended : shown.findSome? Event.failed? = none) : after.control ≠ .free := by
  cases move with
  | @refused operation result => cases result <;> simp [Event.failed?] at unended
  | startRefused | started | stopRefused | stopped => simp [Event.failed?] at unended
  | _ => simp

theorem CallerMove.ends (coherent : Coherent drain) (move : CallerMove drain action after shown)
    {failed : Bool} (ended : shown.findSome? Event.failed? = some failed) :
    after.control = .free ∧ (failed = true →
      drain.control = .free ∧ drain.idle = after ∧ ∀ event ∈ shown, ¬event.IsCall) := by
  cases move with
  | refused free => exact ⟨free, fun _ => ⟨free, idle_of_free free, by simp [Event.IsCall]⟩⟩
  | startRefused control stuck => simp [coherent.start_moves control] at stuck
  | stopRefused control stuck => simp [coherent.stop_moves control] at stuck
  | started | stopped =>
      cases ended
      exact ⟨rfl, by simp⟩
  | _ => simp [Event.failed?] at ended

theorem machine_forgets :
    (machine α).Forgets Coherent (·.control ≠ .free) (·.control = .free) idle (¬·.IsCall) where
  keeps coherent taken := coherent.step taken
  idle_of_free free := idle_of_free (by simpa using free)
  aside aside taken := by
    obtain ⟨same, unended⟩ := step_aside aside taken
    refine ⟨unended, by rw [same], fun free => ⟨same ▸ free, ?_⟩⟩
    rw [idle_of_free free, idle_of_free (same ▸ free)]
    exact taken
  goesOn callers _ taken unended := by
    have under := (step_callers callers taken).goesOn unended
    exact ⟨under, fun blank => absurd blank under⟩
  ends callers coherent taken ended := by
    obtain ⟨free, rest⟩ := (step_callers callers taken).ends coherent ended
    exact ⟨by simp [free], rest⟩

end FolderWatch.Drain
