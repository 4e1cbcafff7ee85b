import FolderWatch.Proofs.Monitor.Alone
import FolderWatch.Proofs.Monitor.Cycles

/-!
Cycles in a call of a listener. Such a cycle stays where it is until the listener returns, whatever
all others do.
-/

namespace FolderWatch.Monitor

variable {monitor after : Monitor} {shown : List Event}

def DeliversTo (monitor : Monitor) (actor : Actor) : Prop :=
  ∃ delivery comparison left produced,
    monitor.cycleOf actor = some (.delivering delivery comparison left produced)

def Delivers (monitor : Monitor) : Prop := ∃ actor, monitor.DeliversTo actor

theorem Passage.delivers {actor : Actor} {delivery : Delivery}
    (passage : Passage monitor after shown) (called : .called actor delivery ∈ shown) :
    after.Delivers := by
  have marked {rest : List Event} (quiet : marks rest = []) : .called actor delivery ∉ rest := by
    intro member
    exact List.filter_eq_nil_iff.mp quiet _ member rfl
  cases passage with
  | cycles here move there =>
      cases move with
      | calls => exact ⟨_, _, _, _, _, (there _).trans (if_pos rfl)⟩
      | _ => simp at called
  | ends here there quiet =>
      simp only [List.mem_cons, reduceCtorEq, false_or] at called
      exact absurd called (marked quiet)
  | rests there quiet => exact absurd called (marked quiet)
  | begins | redirects | rebases => simp at called

theorem cycle_stepControl {signal : Signal}
    (taken : monitor.stepControl signal = some (after, shown)) (index : Nat) :
    after.cycleOf (.poller index) = monitor.cycleOf (.poller index) := by
  simp only [stepControl, publish_eq, finish] at taken
  split at taken
  case h_3 =>
    cases taken
    exact cycle_append monitor.pollers rfl index
  case h_8 closing _ =>
    cases taken
    exact cycle_close monitor.pollers closing index
  case h_16 =>
    simp only [Option.bind_eq_bind, Option.bind_eq_some_iff] at taken
    obtain ⟨step, -, taken⟩ := taken
    cases taken
    rfl
  case h_17 => simp at taken
  all_goals (repeat' split at taken) <;> cases taken <;> rfl

/-- A step of one actor leaves the cycles of all others where they are. -/
theorem cycleOf_elsewhere {actor other : Actor} {signal : Signal} (elsewhere : other ≠ actor)
    (taken : monitor.step (.go actor signal) = some (after, shown)) :
    after.cycleOf other = monitor.cycleOf other := by
  cases actor with
  | caller =>
      cases other with
      | caller => exact absurd rfl elsewhere
      | poller index => exact cycle_stepControl taken index
  | poller moving =>
      obtain ⟨baseline, pollers, rfl, kept⟩ := (pollerStep_of_step taken).frame
      cases other with
      | caller => rfl
      | poller index =>
          have different : moving ≠ index := by
            rintro rfl
            exact elsewhere rfl
          simp only [cycleOf, kept index different]

/-- What wakes a cycle in a call is that the listener returns. -/
theorem DeliversTo.handled {actor : Actor} {signal : Signal} (delivers : monitor.DeliversTo actor)
    (taken : monitor.step (.go actor signal) = some (after, shown)) :
    ∃ verdict, signal = .handled verdict := by
  obtain ⟨delivery, comparison, left, produced, here⟩ := delivers
  cases signal with
  | handled verdict => exact ⟨verdict, rfl⟩
  | proceed | leave | saw | recognized =>
      cases actor with
      | caller =>
          have scanning := scanning_of_cycleOf here
          simp [step, stepControl, scanning, stepCycle] at taken
      | poller index =>
          obtain ⟨poller, found, cycling⟩ := cycling_of_cycleOf here
          simp [step, found, stepPoller, cycling, stepCycle] at taken

theorem Delivers.go {actor : Actor} {signal : Signal} (delivers : monitor.Delivers)
    (taken : monitor.step (.go actor signal) = some (after, shown))
    (unhandled : ∀ verdict, signal ≠ .handled verdict) : after.Delivers := by
  obtain ⟨speaker, speaks⟩ := delivers
  by_cases same : speaker = actor
  · subst same
    obtain ⟨verdict, handled⟩ := speaks.handled taken
    exact absurd handled (unhandled verdict)
  · refine ⟨speaker, ?_⟩
    unfold DeliversTo
    rw [cycleOf_elsewhere same taken]
    exact speaks

theorem pollers_begin (monitor : Monitor) (operation : Operation) :
    (monitor.begin operation).1.pollers = monitor.pollers := by
  cases operation <;> simp only [begin] <;> split <;> rfl

/-- Who calls an operation is in no cycle, and the call leaves every other cycle where it is. -/
theorem cycleOf_call {operation : Operation} {actor : Actor} {phase : CyclePhase}
    (here : monitor.cycleOf actor = some phase)
    (taken : monitor.step (.call operation) = some (after, shown)) :
    actor ≠ .caller ∧ after.cycleOf actor = some phase := by
  obtain ⟨free, begun⟩ := begin_of_step taken
  have pollers : after.pollers = monitor.pollers := by
    rw [← pollers_begin monitor operation, begun]
  cases actor with
  | caller => simp [cycleOf, free, Control.cycle?] at here
  | poller index => exact ⟨by simp, by simpa only [cycleOf, pollers] using here⟩

theorem Delivers.call {operation : Operation} (delivers : monitor.Delivers)
    (taken : monitor.step (.call operation) = some (after, shown)) : after.Delivers := by
  obtain ⟨speaker, delivery, comparison, left, produced, here⟩ := delivers
  exact ⟨speaker, delivery, comparison, left, produced, (cycleOf_call here taken).2⟩

theorem not_delivers_of_stopped (alone : monitor.Alone) (coherent : Coherent monitor)
    (free : monitor.control = .free) (stopped : monitor.isRunning = false) :
    ¬ monitor.Delivers := by
  rintro ⟨actor, delivery, comparison, left, produced, here⟩
  cases actor with
  | caller => simp [cycleOf, free, Control.cycle?] at here
  | poller index =>
      obtain ⟨poller, found, cycling⟩ := cycling_of_cycleOf here
      have gone := alone.gone_of_stopped coherent free stopped found
      simp [gone] at cycling

end FolderWatch.Monitor
