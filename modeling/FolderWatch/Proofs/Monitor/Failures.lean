import FolderWatch.Proofs.Monitor.Retired
import FolderWatch.Proofs.Operations

/-!
What the operations of a monitor have done by the time they fail. A start and a change of the
directory look at the directory first, and a scan captures it first; none of them has touched the
monitor or called anybody by then.
-/

namespace FolderWatch.Monitor

variable {monitor after : Monitor} {shown : List Event}

def Event.failed? : Event → Option Bool
  | .returned _ (.error _) => some true
  | .returned _ (.ok _) => some false
  | _ => none

theorem findSome?_failed? (unended : ∀ event ∈ shown, event.result? = none) :
    shown.findSome? Event.failed? = none := by
  rw [List.findSome?_eq_none_iff]
  intro event member
  have none := unended event member
  cases event with
  | returned => simp [Event.result?] at none
  | _ => rfl

/-- A recognizer or a listener is called. -/
def Event.IsCall : Event → Prop
  | .consulted .. | .called .. => True
  | _ => False

def Action.isCallers : Action → Bool
  | .call _ | .go .caller _ => true
  | _ => false

def machine : Machine Monitor Action Event := ⟨step, Action.isCallers, Event.failed?⟩

def idle (monitor : Monitor) : Monitor := { monitor with control := .free }

end Monitor

def CyclePhase.IsBlank : CyclePhase → Prop
  | waiting | entered | located _ | leaving (.error _) => True
  | _ => False

namespace Monitor

variable {monitor after : Monitor} {shown : List Event}

/-- The caller has nothing under way, or an operation that has only looked at the directory. -/
def Control.IsBlank : Control → Prop
  | free | starting | redirecting _ => True
  | scanning phase => phase.IsBlank
  | _ => False

@[simp] theorem idle_setPoller (index : Nat) (poller : Poller) :
    monitor.idle.setPoller index poller = (monitor.setPoller index poller).idle := rfl

@[simp] theorem idle_exitLine : monitor.idle.exitLine = monitor.exitLine := rfl

@[simp] theorem idle_publish (step : CycleStep) :
    monitor.idle.publish step = (monitor.publish step).idle := by
  simp only [publish_eq, idle]

theorem isCycling_of_idle (cycling : monitor.idle.isCycling = true) : monitor.isCycling = true := by
  simp only [isCycling, idle, Bool.or_eq_true] at cycling ⊢
  exact cycling.imp_left (by simp)

theorem stepCycle_idle {index : Nat} {phase : CyclePhase} {signal : Signal} {step : CycleStep}
    (taken : monitor.stepCycle (.poller index) phase signal = some step) :
    monitor.idle.stepCycle (.poller index) phase signal = some step := by
  simp only [stepCycle] at taken
  split at taken
  case h_1 =>
    split at taken
    · simp at taken
    · rename_i none
      simpa [stepCycle, mt isCycling_of_idle none] using taken
  case h_14 => simp at taken
  all_goals exact taken

/-- A poller goes on in the same way whatever the caller is about, except that it may have to wait
for the caller's cycle. -/
theorem stepPoller_idle {index : Nat} {poller : Poller} {signal : Signal}
    (taken : monitor.stepPoller index poller signal = some (after, shown)) :
    monitor.idle.stepPoller index poller signal = some (after.idle, shown) := by
  obtain ⟨generation, closed, phase⟩ := poller
  simp only [stepPoller] at taken
  split at taken
  case h_1 =>
    split at taken
    all_goals
      rename_i told
      cases taken
      simp [stepPoller, told]
  case h_2 | h_4 =>
    cases taken
    simp [stepPoller]
  case h_3 phase signal inside =>
    simp only [Option.bind_eq_bind, Option.bind_eq_some_iff] at taken
    obtain ⟨step, goes, taken⟩ := taken
    cases taken
    have again := stepCycle_idle goes
    simp [stepPoller, again]
  case h_5 =>
    split at taken
    · rename_i told
      cases taken
      simp [stepPoller, told]
    · simp at taken
  case h_6 => simp at taken

theorem step_aside {action : Action} (aside : action.isCallers = false)
    (taken : monitor.step action = some (after, shown)) :
    monitor.idle.step action = some (after.idle, shown) ∧ after.control = monitor.control ∧
      shown.findSome? Event.failed? = none := by
  cases action with
  | call => simp [Action.isCallers] at aside
  | go actor signal =>
      cases actor with
      | caller => simp [Action.isCallers] at aside
      | poller index =>
          have took := pollerStep_of_step taken
          refine ⟨?_, took.control, findSome?_failed? took.result?⟩
          obtain ⟨poller, here, taken⟩ := stepPoller_of_step taken
          have found : monitor.idle.pollers[index]? = some poller := here
          simp [step, found, stepPoller_idle taken]
  | _ =>
      cases taken
      exact ⟨rfl, rfl, rfl⟩

theorem step_callers {action : Action} (callers : action.isCallers = true)
    (taken : monitor.step action = some (after, shown)) : CallerStep monitor after shown := by
  cases action with
  | call operation => exact .acts (call_move taken)
  | go actor signal =>
      cases actor with
      | caller => exact stepControl_callerStep taken
      | poller => simp [Action.isCallers] at callers
  | _ => simp [Action.isCallers] at callers

theorem idle_of_free (free : monitor.control = .free) : monitor.idle = monitor := by
  cases monitor
  cases free
  rfl

theorem CycleMove.blank {actor : Actor} {phase : CyclePhase} {step : CycleStep}
    (move : CycleMove monitor actor phase step) (blank : step.phase.IsBlank) :
    phase.IsBlank ∧ step.publishes = none ∧ ∀ event ∈ step.shown, ¬event.IsCall := by
  cases move with
  | enters | locates => exact ⟨trivial, rfl, by simp [Event.IsCall]⟩
  | fails => exact ⟨trivial, rfl, by simp +contextual [Event.IsCall]⟩
  | _ => exact blank.elim

theorem CallerStep.goesOn (step : CallerStep monitor after shown)
    (unended : shown.findSome? Event.failed? = none) :
    after.control ≠ .free ∧ (after.control.IsBlank →
      monitor.control.IsBlank ∧ after.idle = monitor.idle ∧ ∀ event ∈ shown, ¬event.IsCall) := by
  cases step with
  | acts move =>
      cases move with
      | startCalled control | redirectCalled control | scanCalled control =>
          exact ⟨by simp, fun _ => ⟨control ▸ trivial, rfl, by simp⟩⟩
      | @refused operation result => cases result <;> simp [Event.failed?] at unended
      | startUnusable | startRefused | started | stopRefused | stopped | redirectUnusable
      | rebased => simp [Event.failed?] at unended
      | stopCalled | startChecked | numbered | spawned | startMoved | slotEmpty | slotTaken
      | outdated | closed | joined | gaveUp | redirectChecked | redirected =>
          exact ⟨by simp, fun blank => blank.elim⟩
  | @cycles phase step control move =>
      refine ⟨by simp [setCycle], fun blank => ?_⟩
      obtain ⟨before, kept, quiet⟩ := move.blank blank
      rw [publish_eq, kept]
      exact ⟨control ▸ before, rfl, quiet⟩
  | @scanned result => cases result <;> simp [Event.failed?] at unended

theorem CallerStep.ends (coherent : Coherent monitor) (step : CallerStep monitor after shown)
    {failed : Bool} (ended : shown.findSome? Event.failed? = some failed) :
    after.control = .free ∧ (failed = true →
      monitor.control.IsBlank ∧ monitor.idle = after ∧ ∀ event ∈ shown, ¬event.IsCall) := by
  cases step with
  | acts move =>
      cases move with
      | refused free =>
          exact ⟨free, fun _ => ⟨free ▸ trivial, idle_of_free free, by simp [Event.IsCall]⟩⟩
      | startUnusable control | redirectUnusable control =>
          exact ⟨rfl, fun _ => ⟨control ▸ trivial, rfl, by simp [Event.IsCall]⟩⟩
      | startRefused control stuck => simp [coherent.start_moves control] at stuck
      | stopRefused control stuck => simp [coherent.stop_moves control] at stuck
      | started | stopped | rebased =>
          cases ended
          exact ⟨rfl, by simp⟩
      | _ => simp [Event.failed?] at ended
  | cycles _ move => simp [findSome?_failed? move.result?] at ended
  | @scanned result control =>
      cases result with
      | ok found =>
          cases ended
          exact ⟨rfl, by simp⟩
      | error fault => exact ⟨rfl, fun _ => ⟨control ▸ trivial, rfl, by simp [Event.IsCall]⟩⟩

theorem machine_forgets :
    machine.Forgets Coherent (·.control ≠ .free) (·.control.IsBlank) idle (¬·.IsCall) where
  keeps coherent taken := coherent.move (step_move taken)
  idle_of_free free := idle_of_free (by simpa using free)
  aside aside taken := by
    obtain ⟨again, same, unended⟩ := step_aside aside taken
    exact ⟨unended, by rw [same], fun blank => ⟨same ▸ blank, again⟩⟩
  goesOn callers _ taken unended := (step_callers callers taken).goesOn unended
  ends callers coherent taken ended := by
    obtain ⟨free, rest⟩ := (step_callers callers taken).ends coherent ended
    exact ⟨by simp [free], rest⟩

end Monitor

end FolderWatch
