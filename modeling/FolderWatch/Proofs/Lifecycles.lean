import FolderWatch.Proofs.Drain.Turns
import FolderWatch.Proofs.Monitor.Turns
import FolderWatch.Word

/-!
Between two operations the lifecycle of a monitor or a drain, its slot and the number of starts and
stops that succeeded say the same, and for a monitor so does its generation. The generation fits a
word of 64 bits for as long as that number does.
-/

namespace FolderWatch

namespace Monitor

variable {monitor : Monitor} {turned : List RunEvent}

/-- What is true of a monitor while no operation is under way. -/
structure InStep (turned : List RunEvent) (monitor : Monitor) : Prop where
  slot : monitor.isRunning = true ↔ monitor.slot.isSome = true
  generation : monitor.generation = turned.length
  running : monitor.isRunning = true → ∃ index poller, monitor.slot = some index ∧
    monitor.pollers[index]? = some poller ∧ poller.generation = monitor.generation
  stopped : monitor.isRunning = false →
    ∀ poller ∈ monitor.pollers, poller.generation ≠ monitor.generation

/-- A machine word holds the generation, and telling generations apart by their words is as good. -/
structure FitsWord (monitor : Monitor) : Prop where
  held : (UInt64.ofNat monitor.generation).toNat = monitor.generation
  told : ∀ actor, monitor.isCurrent actor = (monitor.generationOf actor).all fun generation =>
    UInt64.ofNat generation = UInt64.ofNat monitor.generation

theorem Coherent.generation_ne (coherent : Coherent monitor)
    (nobody : monitor.control.charge monitor.slot = none) :
    ∀ poller ∈ monitor.pollers, poller.generation ≠ monitor.generation := by
  intro poller member
  obtain ⟨index, here⟩ := List.mem_iff_getElem?.mp member
  have badged : monitor.badgeOf index = some (badge poller) := by simp [badgeOf, here]
  exact Nat.ne_of_lt (coherent.retired index _ _ badged (by simp [nobody])).2

theorem Counted.inStep (counted : Counted turned monitor) (coherent : Coherent monitor)
    (free : monitor.control = .free) : InStep turned monitor := by
  have agrees : monitor.isRunning = monitor.slot.isSome := by
    simpa [free, Control.Agrees] using coherent.agrees
  refine ⟨by rw [agrees], by simpa [free, Control.ahead] using counted.generation, ?_, ?_⟩
  · intro running
    obtain ⟨index, slot⟩ := Option.isSome_iff_exists.mp (agrees ▸ running)
    obtain ⟨closed, badged⟩ := counted.current index (by simp [free, Control.current?, slot])
    simp only [badgeOf, badge, Option.map_eq_some_iff, Prod.mk.injEq] at badged
    obtain ⟨poller, here, same, -⟩ := badged
    exact ⟨index, poller, slot, here, same⟩
  · intro stopped
    have empty : monitor.slot = none := by simpa [stopped] using agrees
    exact coherent.generation_ne (by simp [free, Control.charge, empty])

theorem ofNat_eq_iff {generation current : Nat} (past : generation ≤ current)
    (small : current < wordLimit) :
    UInt64.ofNat generation = UInt64.ofNat current ↔ generation = current := by
  rw [← UInt64.toNat_inj, UInt64.toNat_ofNat_of_lt' (Nat.lt_of_le_of_lt past small),
    UInt64.toNat_ofNat_of_lt' small]

theorem Coherent.generationOf_le (coherent : Coherent monitor) {actor : Actor} {generation : Nat}
    (own : monitor.generationOf actor = some generation) : generation ≤ monitor.generation := by
  cases actor with
  | caller => simp [generationOf] at own
  | poller index =>
      obtain ⟨poller, here, rfl⟩ := Option.map_eq_some_iff.mp own
      exact coherent.bounded index _ poller.closed (by simp [badgeOf, badge, here])

theorem Coherent.fitsWord (coherent : Coherent monitor) (small : monitor.generation < wordLimit) :
    FitsWord monitor := by
  refine ⟨UInt64.toNat_ofNat_of_lt' small, ?_⟩
  intro actor
  rw [isCurrent]
  cases own : monitor.generationOf actor with
  | none => rfl
  | some generation =>
      have same := ofNat_eq_iff (coherent.generationOf_le own) small
      simp only [Option.all_some, same]

end Monitor

/-- Starts and stops that succeed take turns, so that one start at most succeeds without a stop in
between; and the lifecycle never refuses the move of a start that has its worker already, nor that of
a stop that has parted with it. -/
theorem lifecycles_in_step :
    (∀ {view : DirectoryView} {workingDirectory path : Path} {settings : PollSettings}
      {fresh last : Monitor} {shown : List Monitor.Event},
      Monitor.create view workingDirectory path settings = .ok fresh →
      Monitor.Run fresh shown last →
        (last.control = .free → Monitor.InStep (Monitor.turns shown) last) ∧
        ((Monitor.turns shown).length + last.control.ahead < wordLimit → Monitor.FitsWord last) ∧
        TakeTurns (Monitor.turns shown) ∧
        (∀ past between rest, shown = past ++ between ++ rest →
          .stop ∉ Monitor.turns between → (Monitor.turns between).count .start ≤ 1) ∧
        (∀ poller, last.control = .spawned poller →
          ∃ lifecycle, last.lifecycle.move? .start = some lifecycle) ∧
        (last.control = .parted → ∃ lifecycle, last.lifecycle.move? .stop = some lifecycle)) ∧
    (∀ {α : Type} {stopTimeout : TimeSpan} {last : Drain α} {shown : List (Drain.Event α)},
      Drain.Run { stopTimeout } shown last →
        (last.control = .free → (last.isRunning = true ↔ last.slot.isSome = true)) ∧
        TakeTurns (Drain.turns shown) ∧
        (∀ past between rest, shown = past ++ between ++ rest →
          .stop ∉ Drain.turns between → (Drain.turns between).count .start ≤ 1) ∧
        (∀ worker, last.control = .spawned worker →
          ∃ lifecycle, last.lifecycle.move? .start = some lifecycle) ∧
        (last.control = .parted → ∃ lifecycle, last.lifecycle.move? .stop = some lifecycle)) := by
  constructor
  · intro view workingDirectory path settings fresh last shown created run
    have coherent := Monitor.Coherent.run created run
    have counted := Monitor.Counted.run created run
    have alternate := counted.tally.alternate
    refine ⟨counted.inStep coherent, ?_, alternate, ?_,
      fun _ control => ⟨_, coherent.start_moves control⟩,
      fun control => ⟨_, coherent.stop_moves control⟩⟩
    · intro few
      rw [← counted.generation] at few
      exact coherent.fitsWord few
    · rintro past between rest rfl unstopped
      rw [Monitor.turns_append, Monitor.turns_append] at alternate
      exact alternate.starts_le_one unstopped
  · intro α stopTimeout last shown run
    have coherent := run.coherent
    have alternate := (Drain.Counted.run run).alternate
    refine ⟨?_, alternate, ?_, fun _ control => ⟨_, coherent.start_moves control⟩,
      fun control => ⟨_, coherent.stop_moves control⟩⟩
    · intro free
      have agrees : last.isRunning = last.slot.isSome := by
        simpa [free, Drain.Control.Agrees] using coherent.agrees
      rw [agrees]
    · rintro past between rest rfl unstopped
      rw [Drain.turns_append, Drain.turns_append] at alternate
      exact alternate.starts_le_one unstopped

/-- A second start is refused, the poller is given up, and there is another start. -/
def Monitor.restarted : List Monitor.Action := [
  .call .start, .go .caller (.saw bareView), .go .caller .proceed, .go .caller .proceed,
  .go .caller .proceed, .go .caller .proceed, .call .start, .go (.poller 0) .proceed,
  .call .stop, .go .caller .proceed, .go .caller .proceed, .go .caller .proceed,
  .go .caller .leave, .go .caller .proceed,
  .call .start, .go .caller (.saw bareView), .go .caller .proceed, .go .caller .proceed,
  .go .caller .proceed, .go .caller .proceed]

theorem lifecycles_in_step_restarted :
    (∃ last shown, Monitor.Run Monitor.freshMonitor shown last ∧ last.control = .free ∧
      Monitor.turns shown = [.start, .stop, .start] ∧
      Monitor.InStep (Monitor.turns shown) last ∧ Monitor.FitsWord last) ∧
    (∃ (last : Drain Nat) (shown : List (Drain.Event Nat)), Drain.Run {} shown last ∧
      last.control = .free ∧ Drain.turns shown = [.start] ∧
      (last.isRunning = true ↔ last.slot.isSome = true)) := by
  constructor
  · obtain ⟨last, shown, run, checked⟩ := Monitor.exists_run Monitor.freshMonitor
      Monitor.restarted Monitor.anyStep (fun _ _ _ => trivial)
      (fun last shown => last.control.isFree &&
        decide (Monitor.turns shown = [.start, .stop, .start])) (by decide +kernel)
    simp only [Bool.and_eq_true, decide_eq_true_eq] at checked
    have free := Monitor.Control.free_of_isFree checked.1
    obtain ⟨inStep, fits, -⟩ := lifecycles_in_step.1 Monitor.create_freshMonitor run
    refine ⟨last, shown, run, free, checked.2, inStep free, fits ?_⟩
    rw [checked.2, free]
    decide
  · have run := (Drain.Run.rest ({} : Drain Nat)).steps [
      .call .start, .control .proceed, .control .proceed, .control .proceed, .call .start] rfl
    exact ⟨_, _, run, rfl, rfl, (lifecycles_in_step.2 run).1 rfl⟩

end FolderWatch
