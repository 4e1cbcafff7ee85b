import FolderWatch.Proofs.Drain.Failures
import FolderWatch.Proofs.Monitor.Failures

/-!
An operation of a monitor or a drain that fails leaves nothing behind: no step of it changes
anything but where the caller is, none calls anybody, and without these steps a course goes the same
way to the same end.
-/

namespace FolderWatch

theorem Monitor.control_only {before after : Monitor} (same : after.idle = before.idle) :
    after = { before with control := after.control } := by
  have back : after = { after.idle with control := after.control } := rfl
  rw [same] at back
  exact back

theorem Drain.control_only {α : Type} {before after : Drain α} (same : after.idle = before.idle) :
    after = { before with control := after.control } := by
  have back : after = { after.idle with control := after.control } := rfl
  rw [same] at back
  exact back

/-- From wherever no operation is under way, the steps of failed operations can be taken out of a
course of steps of all actors, and each of them left everything as it was. -/
theorem failures_leave_nothing :
    (∀ {view : DirectoryView} {workingDirectory path : Path} {settings : PollSettings}
      {fresh first last : Monitor} {earlier : List Monitor.Event}
      {steps : List (Monitor.Action × List Monitor.Event)},
      Monitor.create view workingDirectory path settings = .ok fresh →
      Monitor.Run fresh earlier first → first.control = .free →
      Monitor.machine.Course first steps last →
        Monitor.machine.Course first (Monitor.machine.withoutFailed steps) last ∧
        ∀ past action shown later, steps = past ++ (action, shown) :: later →
          Monitor.machine.isOfFailed (action, shown) later = true →
            ∃ before after, Monitor.machine.Course first past before ∧
              before.step action = some (after, shown) ∧
              Monitor.machine.Course after later last ∧
              after = { before with control := after.control } ∧
              ∀ event ∈ shown, ¬event.IsCall) ∧
    (∀ {α : Type} {stopTimeout : TimeSpan} {first last : Drain α} {earlier : List (Drain.Event α)}
      {steps : List (Drain.Action α × List (Drain.Event α))},
      Drain.Run { stopTimeout } earlier first → first.control = .free →
      (Drain.machine α).Course first steps last →
        (Drain.machine α).Course first ((Drain.machine α).withoutFailed steps) last ∧
        ∀ past action shown later, steps = past ++ (action, shown) :: later →
          (Drain.machine α).isOfFailed (action, shown) later = true →
            ∃ before after, (Drain.machine α).Course first past before ∧
              before.step action = some (after, shown) ∧
              (Drain.machine α).Course after later last ∧
              after = { before with control := after.control } ∧
              ∀ event ∈ shown, ¬event.IsCall) := by
  constructor
  · intro view workingDirectory path settings fresh first last earlier steps created reached free
      course
    have coherent := Monitor.Coherent.run created reached
    have forgets := Monitor.machine_forgets
    refine ⟨(forgets.leaves coherent course).2 (.inl (by simp [free])), ?_⟩
    intro past action shown later split failed
    obtain ⟨before, after, reached, taken, rest, same, quiet⟩ :=
      forgets.leavesNothing coherent course split failed
    exact ⟨before, after, reached, taken, rest, Monitor.control_only same, quiet⟩
  · intro α stopTimeout first last earlier steps reached free course
    have coherent := reached.coherent
    have forgets := Drain.machine_forgets (α := α)
    refine ⟨(forgets.leaves coherent course).2 (.inl (by simp [free])), ?_⟩
    intro past action shown later split failed
    obtain ⟨before, after, reached, taken, rest, same, quiet⟩ :=
      forgets.leavesNothing coherent course split failed
    exact ⟨before, after, reached, taken, rest, Drain.control_only same, quiet⟩

def goneView : DirectoryView := ⟨fun _ => .error .missing, fun _ => .error .missing⟩

/-- Every way to fail, one after another; a poller that a stop left alone goes on in between. -/
def Monitor.mishaps : List Monitor.Action := [
  .call .stop, .call .start, .go .caller (.saw goneView),
  .call .start, .go .caller (.saw bareView), .go .caller .proceed, .go .caller .proceed,
  .go .caller .proceed, .go .caller .proceed,
  .call .start, .call .scan, .call (.setDirectory ⟨[]⟩), .go (.poller 0) .proceed,
  .call .stop, .go .caller .proceed, .go .caller .proceed, .go .caller .proceed,
  .go .caller .leave, .go .caller .proceed,
  .call .scan, .go .caller .proceed, .go .caller .proceed, .addBuiltIns,
  .go .caller (.saw goneView), .go .caller .proceed,
  .call (.setDirectory ⟨[]⟩), .go (.poller 0) .proceed, .go .caller (.saw goneView)]

def Drain.mishaps : List (Drain.Action Nat) := [
  .push 1, .call .stop, .call .start, .control .proceed, .control .proceed, .control .proceed,
  .work 0 .proceed, .call .start, .call .stop, .control .proceed, .control .proceed,
  .control .leave, .control .proceed, .call .stop]

theorem failures_leave_nothing_mishaps :
    (∃ steps last, Monitor.machine.Course Monitor.freshMonitor steps last ∧
      (steps.length, (Monitor.machine.withoutFailed steps).length) = (28, 15) ∧
      Monitor.machine.Course Monitor.freshMonitor (Monitor.machine.withoutFailed steps) last) ∧
    (∃ steps last, (Drain.machine Nat).Course {} steps last ∧
      (steps.length, ((Drain.machine Nat).withoutFailed steps).length) = (14, 11) ∧
      (Drain.machine Nat).Course {} ((Drain.machine Nat).withoutFailed steps) last) := by
  constructor
  · obtain ⟨steps, last, course, checked⟩ := Monitor.machine.exists_course Monitor.freshMonitor
      Monitor.mishaps
      (fun steps => (steps.length, (Monitor.machine.withoutFailed steps).length) = (28, 15))
      (by decide +kernel)
    refine ⟨steps, last, course, by simpa using checked, ?_⟩
    exact (failures_leave_nothing.1 Monitor.create_freshMonitor (.rest _) rfl course).1
  · obtain ⟨steps, last, course, checked⟩ := (Drain.machine Nat).exists_course {} Drain.mishaps
      (fun steps => (steps.length, ((Drain.machine Nat).withoutFailed steps).length) = (14, 11))
      (by decide +kernel)
    have fresh : Drain.Run { stopTimeout := .ofSeconds 10 } [] ({} : Drain Nat) := .rest _
    refine ⟨steps, last, course, by simpa using checked, ?_⟩
    exact (failures_leave_nothing.2 fresh rfl course).1

end FolderWatch
