import FolderWatch.Proofs.Monitor.Retired
import FolderWatch.Proofs.Turns

/-!
The generation of a monitor counts the starts and stops that succeeded. A start draws its number
early and a stop moves the generation on before it waits for the poller, so that in between the
generation is one ahead.
-/

namespace FolderWatch.Monitor

variable {shown : List Event}

def Event.turn? : Event → Option RunEvent
  | .returned .start (.ok _) => some .start
  | .returned .stop (.ok _) => some .stop
  | _ => none

/-- The starts and stops that succeeded, in the order in which they came to their ends. -/
def turns (shown : List Event) : List RunEvent := shown.filterMap Event.turn?

@[simp] theorem turns_append (front tail : List Event) :
    turns (front ++ tail) = turns front ++ turns tail :=
  List.filterMap_append ..

theorem turns_of_unended (unended : ∀ event ∈ shown, event.result? = none) : turns shown = [] := by
  rw [turns, List.filterMap_eq_nil_iff]
  intro event member
  have none := unended event member
  cases event with
  | returned => simp [Event.result?] at none
  | _ => rfl

namespace Control

/-- The start is made, and only the slot is still to be filled. -/
def isStarted : Control → Bool
  | started _ => true
  | _ => false

/-- How far the generation is ahead of the starts and stops that are through. -/
def ahead : Control → Nat
  | numbered _ | spawned _ | started _ | outdated _ | joining _ | parted => 1
  | _ => 0

/-- The poller that is of the current generation. -/
def current? (slot : Option Nat) : Control → Option Nat
  | spawned poller | started poller | taken poller => some poller
  | free | stopping => slot
  | _ => none

end Control

structure Counted (turned : List RunEvent) (monitor : Monitor) : Prop where
  tally : Tally turned monitor.isRunning monitor.control.isStarted
  generation : monitor.generation = turned.length + monitor.control.ahead
  numbered : ∀ generation, monitor.control = .numbered generation →
    generation = monitor.generation
  current : ∀ index, monitor.control.current? monitor.slot = some index →
    ∃ closed, monitor.badgeOf index = some (monitor.generation, closed)

variable {monitor after : Monitor} {turned : List RunEvent}

theorem Counted.quiet (counted : Counted turned after) (quiet : turns shown = []) :
    Counted (turned ++ turns shown) after := by
  rwa [quiet, List.append_nil]

/-- A step that leaves alone what is counted. -/
theorem Counted.next (counted : Counted turned monitor) (quiet : turns shown = [])
    (generation : after.generation = monitor.generation)
    (running : after.isRunning = monitor.isRunning)
    (started : after.control.isStarted = monitor.control.isStarted)
    (ahead : after.control.ahead = monitor.control.ahead)
    (numbered : ∀ generation, after.control = .numbered generation →
      monitor.control = .numbered generation)
    (current : ∀ index, after.control.current? after.slot = some index →
      monitor.control.current? monitor.slot = some index ∧
        after.badgeOf index = monitor.badgeOf index) :
    Counted (turned ++ turns shown) after := by
  refine .quiet ⟨?_, ?_, ?_, ?_⟩ quiet
  · rw [running, started]
    exact counted.tally
  · rw [generation, ahead]
    exact counted.generation
  · intro given control
    rw [generation]
    exact counted.numbered given (numbered given control)
  · intro index here
    obtain ⟨before, same⟩ := current index here
    rw [generation, same]
    exact counted.current index before

theorem turns_refused {operation : Operation} {result : Except Fault Nat}
    (unchanged : operation = .drop ∨ ∃ fault, result = .error fault) :
    turns [.returned operation result] = [] := by
  rcases unchanged with rfl | ⟨fault, rfl⟩
  · rfl
  · cases operation <;> rfl

theorem Counted.callerMove (coherent : Coherent monitor) (counted : Counted turned monitor)
    (move : CallerMove monitor after shown) : Counted (turned ++ turns shown) after := by
  have agrees := coherent.agrees
  have tally := counted.tally
  have generation := counted.generation
  cases move with
  | refused _ unchanged =>
      exact counted.next (turns_refused unchanged) rfl rfl rfl rfl (fun _ => id)
        (fun _ here => ⟨here, rfl⟩)
  | startCalled control | redirectCalled control | scanCalled control | startChecked control
  | closed control | joined control | gaveUp control | redirectChecked control
  | redirected control =>
      exact counted.next rfl rfl rfl (by rw [control]; rfl) (by rw [control]; rfl) (by simp)
        (by simp [Control.current?])
  | stopCalled control =>
      exact counted.next rfl rfl rfl (by rw [control]; rfl) (by rw [control]; rfl) (by simp)
        (fun _ here => ⟨by rw [control]; exact here, rfl⟩)
  | slotTaken control slot =>
      exact counted.next rfl rfl rfl (by rw [control]; rfl) (by rw [control]; rfl) (by simp)
        (fun _ here => ⟨by rw [control, slot]; exact here, rfl⟩)
  | startUnusable control | redirectUnusable control | rebased control =>
      rw [control] at agrees
      exact counted.next rfl rfl rfl (by rw [control]; rfl) (by rw [control]; rfl) (by simp)
        (by simp [Control.current?, agrees.2])
  | numbered control =>
      rw [control] at tally generation
      refine .quiet ⟨tally, congrArg (· + 1) generation, ?_, by simp [Control.current?]⟩ rfl
      rintro number same
      cases same
      rfl
  | @spawned number control =>
      rw [control] at tally generation
      refine .quiet ⟨tally, generation, by simp, ?_⟩ rfl
      rintro index same
      cases same
      have drawn := counted.numbered number control
      exact ⟨false, by simp [badgeOf, badge, drawn]⟩
  | startRefused control stuck => simp [coherent.start_moves control] at stuck
  | startMoved control moved =>
      rw [control] at agrees tally generation
      cases (coherent.start_moves control).symm.trans moved
      rw [agrees.1] at tally
      refine .quiet ⟨tally.moves, generation, by simp, ?_⟩ rfl
      intro index here
      exact counted.current index (by rw [control]; exact here)
  | started control =>
      rw [control] at agrees tally generation
      rw [agrees.1] at tally
      refine ⟨?_, ?_, by simp, ?_⟩
      · have runs : monitor.isRunning = true := agrees.1
        show Tally (turned ++ [.start]) monitor.isRunning false
        rw [runs]
        exact tally.starts
      · show monitor.generation = (turned ++ [RunEvent.start]).length + 0
        simp [generation, Control.ahead]
      · intro index here
        exact counted.current index (by rw [control]; exact here)
  | slotEmpty control slot => simp [control, Control.Agrees, slot] at agrees
  | outdated control =>
      rw [control] at tally generation
      exact .quiet ⟨tally, congrArg (· + 1) generation, by simp, by simp [Control.current?]⟩ rfl
  | stopRefused control stuck => simp [coherent.stop_moves control] at stuck
  | stopped control moved =>
      rw [control] at agrees tally generation
      cases (coherent.stop_moves control).symm.trans moved
      rw [agrees.1] at tally
      refine ⟨tally.stops, ?_, by simp, ?_⟩
      · show monitor.generation = (turned ++ [RunEvent.stop]).length + 0
        simp [generation, Control.ahead]
      · simp [Control.current?, agrees.2]

theorem Counted.move (coherent : Coherent monitor) (counted : Counted turned monitor)
    (move : Move monitor after shown) : Counted (turned ++ turns shown) after := by
  cases move with
  | @cycles actor phase step here move =>
      have quiet := turns_of_unended move.result?
      rw [publish_eq]
      cases actor with
      | caller =>
          have control := scanning_of_cycleOf here
          exact counted.next quiet rfl rfl (by rw [control]; rfl) (by rw [control]; rfl)
            (by simp [setCycle]) (by simp [setCycle, Control.current?])
      | poller index =>
          exact counted.next quiet rfl rfl rfl rfl (fun _ => id)
            (fun other current => ⟨current, badgeOf_setCycle _ (.poller index) _ other⟩)
  | turns here turn =>
      exact counted.next (turns_of_unended turn.result?) rfl rfl rfl rfl (fun _ => id)
        (fun other current => ⟨current, badgeOf_setPoller here _ other⟩)
  | scanned control =>
      have agrees := coherent.agrees
      rw [control] at agrees
      exact counted.next rfl rfl rfl (by rw [control]; rfl) (by rw [control]; rfl) (by simp)
        (by simp [Control.current?, agrees.2])
  | acts move => exact counted.callerMove coherent move
  | edits =>
      exact counted.next rfl rfl rfl rfl rfl (fun _ => id) (fun _ current => ⟨current, rfl⟩)

theorem Counted.run {view : DirectoryView} {workingDirectory path : Path} {settings : PollSettings}
    {fresh last : Monitor} (created : create view workingDirectory path settings = .ok fresh)
    (run : Run fresh shown last) : Counted (turns shown) last := by
  induction run with
  | rest =>
      rw [create_eq created]
      exact ⟨.nil, rfl, by simp, by simp [Control.current?]⟩
  | step action run _ taken ih =>
      rw [turns_append]
      exact ih.move (Coherent.run created run) (step_move taken)

end FolderWatch.Monitor
