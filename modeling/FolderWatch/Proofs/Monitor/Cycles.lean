import FolderWatch.Proofs.Monitor.Moves
import FolderWatch.Proofs.Trace

/-!
The cycles of a monitor, all at once. A step moves the cycle of one actor at most, and only one cycle
is inside at a time.
-/

namespace FolderWatch.Monitor

def MayBegin (monitor : Monitor) : Actor → Prop
  | .caller => monitor.control = .free
  | .poller index => ∃ poller, monitor.pollers[index]? = some poller ∧ poller.closed = false

/-- One step as the cycles see it. -/
inductive Passage (monitor after : Monitor) : List Event → Prop
  | cycles {actor : Actor} {phase : CyclePhase} {step : CycleStep}
      (here : monitor.cycleOf actor = some phase) (move : CycleMove monitor actor phase step)
      (there : ∀ other, after.cycleOf other =
        if other = actor then some step.phase else monitor.cycleOf other)
      (baseline : after.baseline = step.publishes.or monitor.baseline)
      (directory : after.directory = monitor.directory) : Passage monitor after step.shown
  | begins {actor : Actor} (may : monitor.MayBegin actor) (here : monitor.cycleOf actor = none)
      (there : ∀ other, after.cycleOf other =
        if other = actor then some .waiting else monitor.cycleOf other)
      (baseline : after.baseline = monitor.baseline)
      (directory : after.directory = monitor.directory) : Passage monitor after []
  | ends {actor : Actor} {result : Except Fault Nat} {rest : List Event}
      (here : monitor.cycleOf actor = some (.leaving result))
      (there : ∀ other, after.cycleOf other =
        if other = actor then none else monitor.cycleOf other)
      (quiet : marks rest = []) (baseline : after.baseline = monitor.baseline)
      (directory : after.directory = monitor.directory) :
      Passage monitor after (.left actor result :: rest)
  | rests {shown : List Event} (there : ∀ other, after.cycleOf other = monitor.cycleOf other)
      (quiet : marks shown = []) (baseline : after.baseline = monitor.baseline)
      (directory : after.directory = monitor.directory) : Passage monitor after shown
  | redirects {target : Path} (control : monitor.control = .redirectable target)
      (there : ∀ other, after.cycleOf other = monitor.cycleOf other)
      (baseline : after.baseline = monitor.baseline)
      (directory : after.directory = monitor.absolute target)
      (next : after.control = .redirected target) : Passage monitor after []
  | rebases {target : Path} (control : monitor.control = .redirected target)
      (there : ∀ other, after.cycleOf other = monitor.cycleOf other)
      (baseline : after.baseline = none) (directory : after.directory = monitor.directory)
      (next : after.control = .free) :
      Passage monitor after [.returned (.setDirectory target) (.ok 0)]

theorem cycleOf_setPoller {monitor : Monitor} {index : Nat} {poller : Poller}
    (here : monitor.pollers[index]? = some poller) (phase : PollerPhase) (other : Actor) :
    (monitor.setPoller index { poller with phase }).cycleOf other =
      if other = .poller index then phase.cycle? else monitor.cycleOf other := by
  cases other with
  | caller => rfl
  | poller otherIndex =>
      simp only [cycleOf, setPoller, List.getElem?_set, Actor.poller.injEq]
      by_cases same : index = otherIndex
      · subst otherIndex
        obtain ⟨below, _⟩ := List.getElem?_eq_some_iff.mp here
        simp [below]
      · simp [same, Ne.symm same]

theorem cycleOf_setCycle {monitor : Monitor} {actor : Actor} {old : CyclePhase}
    (here : monitor.cycleOf actor = some old) (phase : CyclePhase) (other : Actor) :
    (monitor.setCycle actor phase).cycleOf other =
      if other = actor then some phase else monitor.cycleOf other := by
  cases actor with
  | caller => cases other <;> simp [cycleOf, setCycle, Control.cycle?]
  | poller index =>
      cases other with
      | caller => rfl
      | poller otherIndex =>
          simp only [cycleOf, setCycle, List.getElem?_modify, Actor.poller.injEq]
          by_cases same : index = otherIndex
          · subst otherIndex
            obtain ⟨poller, found, -⟩ := cycling_of_cycleOf here
            simp [found, PollerPhase.cycle?]
          · simp only [same, if_false, Ne.symm same]
            cases monitor.pollers[otherIndex]? <;> rfl

theorem PollerTurn.passage {monitor : Monitor} {index : Nat} {poller : Poller}
    {phase : PollerPhase} {shown : List Event} (here : monitor.pollers[index]? = some poller)
    (turn : PollerTurn monitor index poller.closed poller.phase phase shown) :
    Passage monitor (monitor.setPoller index { poller with phase }) shown := by
  have there := cycleOf_setPoller here phase
  have inCycle : monitor.cycleOf (.poller index) = poller.phase.cycle? := by simp [cycleOf, here]
  generalize was : poller.phase = phaseBefore at turn inCycle
  cases turn with
  | begins free =>
      have may : monitor.MayBegin (.poller index) := ⟨poller, here, free⟩
      exact .begins may inCycle there rfl rfl
  | heeds between told =>
      refine .rests (fun other => ?_) rfl rfl rfl
      rw [there]
      split
      · rename_i same
        subst same
        rcases between with rfl | rfl <;> simp [inCycle, PollerPhase.cycle?]
      · rfl
  | ends result =>
      exact .ends inCycle there (by cases result <;> rfl) rfl rfl
  | wakes =>
      refine .rests (fun other => ?_) rfl rfl rfl
      rw [there]
      split
      · rename_i same
        subst same
        simp [inCycle, PollerPhase.cycle?]
      · rfl

theorem cycleOf_congr {monitor after : Monitor}
    (control : after.control.cycle? = monitor.control.cycle?)
    (pollers : ∀ index : Nat, (after.pollers[index]?.bind fun poller => poller.phase.cycle?) =
      monitor.pollers[index]?.bind fun poller => poller.phase.cycle?) (actor : Actor) :
    after.cycleOf actor = monitor.cycleOf actor := by
  cases actor with
  | caller => exact control
  | poller index => exact pollers index

theorem cycle_append (pollers : List Poller) {fresh : Poller} (idle : fresh.phase.cycle? = none)
    (index : Nat) :
    ((pollers ++ [fresh])[index]?.bind fun poller => poller.phase.cycle?) =
      pollers[index]?.bind fun poller => poller.phase.cycle? := by
  rw [Trace.getElem?_append_one]
  split
  · rename_i equal
    simp [equal, idle]
  · rfl

theorem cycle_close (pollers : List Poller) (closing index : Nat) :
    ((pollers.modify closing fun poller => { poller with closed := true })[index]?.bind
        fun poller => poller.phase.cycle?) =
      pollers[index]?.bind fun poller => poller.phase.cycle? := by
  rw [List.getElem?_modify]
  by_cases same : closing = index
  · simp only [same, if_true]
    cases pollers[index]? <;> rfl
  · simp only [same, if_false]
    cases pollers[index]? <;> rfl

theorem CallerMove.passage {monitor after : Monitor} {shown : List Event}
    (move : CallerMove monitor after shown) : Passage monitor after shown := by
  -- Apart from a scan that begins, no cycle moves where the caller's control is in no cycle.
  have still {other : Monitor} {events : List Event} (outside : monitor.control.cycle? = none)
      (control : other.control.cycle? = none)
      (pollers : ∀ index : Nat, (other.pollers[index]?.bind fun poller => poller.phase.cycle?) =
        monitor.pollers[index]?.bind fun poller => poller.phase.cycle?)
      (quiet : marks events = []) (baseline : other.baseline = monitor.baseline)
      (directory : other.directory = monitor.directory) : Passage monitor other events :=
    .rests (cycleOf_congr (control.trans outside.symm) pollers) quiet baseline directory
  cases move with
  | scanCalled free =>
      have outside : monitor.cycleOf .caller = none := by simp [cycleOf, free, Control.cycle?]
      have may : monitor.MayBegin .caller := free
      refine .begins may outside (fun other => ?_) rfl rfl
      cases other <;> simp [cycleOf, Control.cycle?]
  | redirected control =>
      exact .redirects control (cycleOf_congr (by simp [control, Control.cycle?]) fun _ => rfl) rfl rfl
        rfl
  | rebased control =>
      exact .rebases control (cycleOf_congr (by simp [control, Control.cycle?]) fun _ => rfl) rfl rfl
        rfl
  | spawned control =>
      exact still (by simp [control, Control.cycle?]) rfl (cycle_append _ rfl) rfl rfl rfl
  | closed control =>
      exact still (by simp [control, Control.cycle?]) rfl (cycle_close _ _) rfl rfl rfl
  | refused control unchanged =>
      have outside : monitor.control.cycle? = none := by simp [control, Control.cycle?]
      refine still outside outside (fun _ => rfl) ?_ rfl rfl
      rcases unchanged with rfl | ⟨fault, rfl⟩
      · rfl
      · rename_i operation
        cases operation <;> rfl
  | startCalled control | stopCalled control | redirectCalled control | startUnusable control
  | startChecked control | numbered control | startRefused control | startMoved control
  | started control | slotEmpty control | slotTaken control | outdated control | joined control
  | gaveUp control | stopRefused control | stopped control | redirectUnusable control
  | redirectChecked control =>
      exact still (by simp [control, Control.cycle?]) rfl (fun _ => rfl) rfl rfl rfl

theorem Move.passage {monitor after : Monitor} {shown : List Event}
    (move : Move monitor after shown) : Passage monitor after shown := by
  cases move with
  | @cycles actor phase step here move =>
      rw [publish_eq]
      have same (other : Actor) :
          { monitor with baseline := step.publishes.or monitor.baseline }.cycleOf other =
            monitor.cycleOf other := by
        cases other <;> rfl
      refine .cycles here move (fun other => ?_) ?_ ?_
      · rw [cycleOf_setCycle ((same actor).trans here), same]
      · cases actor <;> rfl
      · cases actor <;> rfl
  | turns here turn => exact turn.passage here
  | @scanned result control =>
      have leaving : monitor.cycleOf .caller = some (.leaving result) := by
        simp only [cycleOf, control, Control.cycle?]
      refine .ends leaving (fun other => ?_) rfl rfl rfl
      cases other <;> simp [cycleOf, Control.cycle?]
  | acts move => exact move.passage
  | edits => exact .rests (fun other => by cases other <;> rfl) rfl rfl rfl

/-- A cycle that holds up all others. -/
def Inside (monitor : Monitor) (actor : Actor) : Prop :=
  ∃ phase, monitor.cycleOf actor = some phase ∧ phase.isInside = true

/-- When a cycle goes to where it is not inside, whoever is inside was so already. -/
theorem Inside.elsewhere {monitor after : Monitor} {actor other : Actor} {now : Option CyclePhase}
    (inside : after.Inside other)
    (there : ∀ other, after.cycleOf other = if other = actor then now else monitor.cycleOf other)
    (outside : ∀ phase, now = some phase → phase.isInside = false) :
    other ≠ actor ∧ monitor.Inside other := by
  obtain ⟨phase, here, isInside⟩ := inside
  rw [there] at here
  split at here
  · simp [outside phase here] at isInside
  · rename_i different
    exact ⟨different, phase, here, isInside⟩

theorem isCycling_iff {monitor : Monitor} :
    monitor.isCycling = true ↔ ∃ actor, monitor.Inside actor := by
  simp only [isCycling, Bool.or_eq_true, List.any_eq_true]
  constructor
  · rintro (inside | ⟨poller, member, inside⟩)
    · split at inside
      · rename_i phase control
        exact ⟨.caller, phase, by simp [cycleOf, control, Control.cycle?], inside⟩
      · simp at inside
    · split at inside
      · rename_i phase cycling
        obtain ⟨index, here⟩ := List.mem_iff_getElem?.mp member
        exact ⟨.poller index, phase, by simp [cycleOf, here, cycling, PollerPhase.cycle?], inside⟩
      · simp at inside
  · rintro ⟨actor, phase, here, inside⟩
    cases actor with
    | caller =>
        left
        simpa [scanning_of_cycleOf here] using inside
    | poller index =>
        right
        obtain ⟨poller, found, cycling⟩ := cycling_of_cycleOf here
        exact ⟨poller, List.mem_of_getElem? found, by simpa [cycling] using inside⟩

def Exclusive (monitor : Monitor) : Prop :=
  ∀ first second, monitor.Inside first → monitor.Inside second → first = second

theorem CycleMove.inside {monitor : Monitor} {actor : Actor} {phase : CyclePhase} {step : CycleStep}
    (move : CycleMove monitor actor phase step) :
    (phase.isInside = true ∨ monitor.isCycling = false) ∧ step.phase.isInside = true := by
  cases move with
  | enters idle => exact ⟨.inr idle, rfl⟩
  | _ => exact ⟨.inl rfl, rfl⟩

theorem Exclusive.passage {monitor after : Monitor} {shown : List Event}
    (exclusive : monitor.Exclusive) (passage : Passage monitor after shown) : after.Exclusive := by
  cases passage with
  | @cycles actor phase step here move there =>
      -- Whoever is inside afterwards was inside already, or it is the one cycle that moved.
      have only (other : Actor) (inside : after.Inside other) : other = actor := by
        by_cases same : other = actor
        · exact same
        · obtain ⟨otherPhase, otherHere, otherInside⟩ := inside
          rw [there, if_neg same] at otherHere
          have otherWas : monitor.Inside other := ⟨otherPhase, otherHere, otherInside⟩
          rcases move.inside.1 with wasInside | idle
          · exact exclusive other actor otherWas ⟨phase, here, wasInside⟩
          · have cycling := isCycling_iff.mpr ⟨other, otherWas⟩
            simp [idle] at cycling
      intro first second firstInside secondInside
      rw [only first firstInside, only second secondInside]
  | begins _ _ there =>
      intro first second firstInside secondInside
      have firstWas := (firstInside.elsewhere there (by simp [CyclePhase.isInside])).2
      have secondWas := (secondInside.elsewhere there (by simp [CyclePhase.isInside])).2
      exact exclusive first second firstWas secondWas
  | ends _ there =>
      intro first second firstInside secondInside
      have firstWas := (firstInside.elsewhere there (by simp)).2
      have secondWas := (secondInside.elsewhere there (by simp)).2
      exact exclusive first second firstWas secondWas
  | rests there | redirects _ there | rebases _ there =>
      intro first second firstInside secondInside
      simp only [Inside, there] at firstInside secondInside
      exact exclusive first second firstInside secondInside

end FolderWatch.Monitor
