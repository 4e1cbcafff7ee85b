import FolderWatch.Proofs.Monitor.Progress

/-!
What a stop keeps a poller from. A cycle asks once whether it is current; a stop that lands before
that silences it for good, and one that lands after it does not.
-/

namespace FolderWatch.Monitor

def Event.isWordOf (actor : Actor) : Event → Bool
  | .called other _ | .published other _ => other = actor
  | _ => false

/-- From here on a poller calls no listener and leaves the baseline alone, whatever else goes on. -/
def Silent (monitor : Monitor) (index : Nat) : Prop :=
  ∀ (shown : List Event) (later : Monitor), Run monitor shown later →
    shown.any (Event.isWordOf (.poller index)) = false ∧
      ∀ (signal : Signal) (after : Monitor) (more : List Event),
        later.step (.go (.poller index) signal) = some (after, more) →
          after.baseline = later.baseline

structure Silenced (monitor : Monitor) (index : Nat) : Prop where
  stale : Stale monitor (.poller index)
  early : ∀ phase, monitor.cycleOf (.poller index) = some phase → phase.isCommitted = false

variable {monitor after : Monitor} {index : Nat} {shown : List Event}

theorem any_marks (actor : Actor) (shown : List Event) :
    (marks shown).any (Event.isWordOf actor) = shown.any (Event.isWordOf actor) := by
  rw [marks, List.any_filter]
  congr 1
  funext event
  cases event <;> simp [Event.isMark, Event.isWordOf]

theorem any_logged (actor other : Actor) (lines : List LogLine) :
    (lines.map (Event.logged other)).any (Event.isWordOf actor) = false := by
  rw [← any_marks, marks_logged]
  rfl

theorem CycleMove.silent {actor : Actor} {phase : CyclePhase} {step : CycleStep}
    (move : CycleMove monitor actor phase step) (stale : monitor.isCurrent actor = false)
    (early : phase.isCommitted = false) :
    step.phase.isCommitted = false ∧ step.publishes = none ∧
      step.shown.any (Event.isWordOf actor) = false := by
  cases move with
  | accepted current | decides current => simp [stale] at current
  | calls | handled | stores | publishes => simp [CyclePhase.isCommitted] at early
  | fails | captures | answers => exact ⟨rfl, rfl, any_logged ..⟩
  | _ => exact ⟨rfl, rfl, rfl⟩

theorem CycleMove.own {actor other : Actor} {phase : CyclePhase} {step : CycleStep}
    (move : CycleMove monitor actor phase step) (different : actor ≠ other) :
    step.shown.any (Event.isWordOf other) = false := by
  cases move with
  | fails | captures | answers | handled => exact any_logged ..
  | calls | publishes => simp [Event.isWordOf, different]
  | _ => rfl

theorem Silenced.move (silenced : Silenced monitor index) (move : Move monitor after shown) :
    Silenced after index ∧ shown.any (Event.isWordOf (.poller index)) = false := by
  suffices quiet : (∀ phase, after.cycleOf (.poller index) = some phase →
      phase.isCommitted = false) ∧ shown.any (Event.isWordOf (.poller index)) = false from
    ⟨⟨silenced.stale.move move, quiet.1⟩, quiet.2⟩
  cases move.passage with
  | @cycles actor phase step inCycle cycleMove there =>
      by_cases same : actor = .poller index
      · subst same
        obtain ⟨early, -, wordless⟩ :=
          cycleMove.silent silenced.stale.notCurrent (silenced.early phase inCycle)
        exact ⟨by simpa [there] using early, wordless⟩
      · refine ⟨fun phase afterHere => ?_, cycleMove.own same⟩
        rw [there, if_neg (Ne.symm same)] at afterHere
        exact silenced.early phase afterHere
  | @begins actor _ _ there =>
      refine ⟨fun phase afterHere => ?_, rfl⟩
      rw [there] at afterHere
      split at afterHere
      · cases afterHere
        rfl
      · exact silenced.early phase afterHere
  | @ends actor result rest _ there quiet =>
      refine ⟨fun phase afterHere => ?_, ?_⟩
      · rw [there] at afterHere
        split at afterHere
        · simp at afterHere
        · exact silenced.early phase afterHere
      · show rest.any (Event.isWordOf (.poller index)) = false
        rw [← any_marks, quiet]
        rfl
  | rests there quiet =>
      refine ⟨fun phase => there _ ▸ silenced.early phase, ?_⟩
      rw [← any_marks, quiet]
      rfl
  | redirects _ there | rebases _ there =>
      exact ⟨fun phase => there _ ▸ silenced.early phase, rfl⟩

theorem Silenced.run {later : Monitor} (silenced : Silenced monitor index)
    (run : Run monitor shown later) :
    Silenced later index ∧ shown.any (Event.isWordOf (.poller index)) = false := by
  induction run with
  | rest => exact ⟨silenced, rfl⟩
  | step action _ _ taken ih =>
      obtain ⟨still, before⟩ := ih
      obtain ⟨stays, now⟩ := still.move (step_move taken)
      exact ⟨stays, by rw [List.any_append, before, now]; rfl⟩

theorem PollerStep.baseline (step : PollerStep monitor index after shown)
    (wordless : shown.any (Event.isWordOf (.poller index)) = false) :
    after.baseline = monitor.baseline := by
  cases step with
  | turns => rfl
  | cycles _ move =>
      cases move with
      | publishes => simp [Event.isWordOf] at wordless
      | _ => rfl

theorem Silenced.silent (silenced : Silenced monitor index) : Silent monitor index := by
  intro shown later run
  obtain ⟨still, wordless⟩ := silenced.run run
  refine ⟨wordless, fun signal after more taken => ?_⟩
  have quiet := (still.move (step_move taken)).2
  exact (pollerStep_of_step taken).baseline quiet

theorem Coherent.stale_of_stopped (coherent : Coherent monitor) (move : Move monitor after shown)
    (ended : .returned .stop (.ok 0) ∈ shown) (started : index < after.pollers.length) :
    Stale after (.poller index) := by
  have stopped : after.control = .free ∧ after.slot = none := by
    cases move with
    | cycles _ move => cases move <;> simp at ended
    | @turns _ poller _ _ _ turn =>
        generalize poller.phase = before at turn
        cases turn with
        | ends result => cases result <;> simp at ended
        | _ => simp at ended
    | scanned | edits => simp at ended
    | acts move =>
        cases move with
        | stopped control =>
            have agrees := coherent.agrees
            simp only [control, Control.Agrees] at agrees
            exact ⟨rfl, agrees.2⟩
        | refused _ unchanged =>
            rcases unchanged with rfl | ⟨fault, rfl⟩ <;> simp at ended
        | _ => simp at ended
  exact (coherent.move move).stale (by simp [stopped, Control.charge]) started

/-- When a stop has ended, a poller ever started is silent just if it is not past its check: then it
can still make every call it has left, and publish. -/
theorem silent_iff_of_stopped {view : DirectoryView} {workingDirectory path : Path}
    {settings : PollSettings} {fresh : Monitor} {past : List Event} {action : Action}
    (created : create view workingDirectory path settings = .ok fresh)
    (run : Run fresh past monitor) (taken : monitor.step action = some (after, shown))
    (ended : .returned .stop (.ok 0) ∈ shown) (started : index < after.pollers.length) :
    Silent after index ↔
      ∀ phase, after.cycleOf (.poller index) = some phase → phase.isCommitted = false := by
  constructor
  · intro silent phase here
    cases committed : phase.isCommitted with
    | false => rfl
    | true =>
        -- If only it goes on from here, it publishes.
        obtain ⟨later, last, called, snapshot, goesOn, marked⟩ :=
          exists_publishing_of_committed here committed
        have wordless := (silent later last goesOn).1
        simp [← any_marks, marked, Event.isWordOf] at wordless
  · intro early
    have stale := (Coherent.run created run).stale_of_stopped (step_move taken) ended started
    exact Silenced.silent ⟨stale, early⟩

def Event.endsStop : Event → Bool
  | .returned .stop (.ok 0) => true
  | _ => false

theorem mem_of_endsStop (ended : shown.any Event.endsStop = true) :
    .returned .stop (.ok 0) ∈ shown := by
  obtain ⟨event, member, ends⟩ := List.any_eq_true.mp ended
  unfold Event.endsStop at ends
  split at ends
  · exact member
  · simp at ends

/-- A poller takes some turns and is then told to stop, and given up. -/
def givenUpAfter (turns : List Signal) : List Action :=
  [.addActivity ⟨.held "recognizer", .custom "recognizer"⟩, .addListener ⟨.held "listener"⟩,
    .call .start, .go .caller (.saw bareView), .go .caller .proceed, .go .caller .proceed,
    .go .caller .proceed, .go .caller .proceed] ++
  turns.map (.go (.poller 0)) ++
  [.call .stop, .go .caller .proceed, .go .caller .proceed, .go .caller .proceed,
    .go .caller .leave]

def finding : List Signal := [
  .proceed, .proceed, .proceed, .saw bareView, .proceed, .proceed, .proceed, .proceed,
  .recognized (some [.created ⟨⟨[]⟩, 0, 0⟩]), .proceed]

def stopsNow (check : Monitor → Bool) (monitor : Monitor) : Bool :=
  (monitor.step (.go .caller .proceed)).any fun (after, shown) =>
    shown.any Event.endsStop && decide (0 < after.pollers.length) && check after

theorem exists_givenUp (turns : List Signal) (check : Monitor → Bool)
    (checked : ((freshMonitor.steps anyStep (givenUpAfter turns)).any fun (monitor, _) =>
      stopsNow check monitor) = true) :
    ∃ monitor after past shown, Run freshMonitor past monitor ∧
      monitor.step (.go .caller .proceed) = some (after, shown) ∧
      .returned .stop (.ok 0) ∈ shown ∧ 0 < after.pollers.length ∧ check after = true := by
  obtain ⟨monitor, past, run, checked⟩ := exists_run freshMonitor (givenUpAfter turns) anyStep
    (fun _ _ _ => trivial) (fun monitor _ => stopsNow check monitor) checked
  simp only [stopsNow, Option.any_eq_true, Bool.and_eq_true, decide_eq_true_eq] at checked
  obtain ⟨⟨after, shown⟩, taken, ⟨ended, started⟩, holds⟩ := checked
  exact ⟨monitor, after, past, shown, run, taken, mem_of_endsStop ended, started, holds⟩

/-- A stop that gives a poller up in its capture has silenced it. -/
theorem silent_of_stopped_early :
    ∃ (monitor after : Monitor) (past shown : List Event),
      create bareView ⟨[]⟩ ⟨[]⟩ { firstScan := .reportExisting } = .ok freshMonitor ∧
      Run freshMonitor past monitor ∧
      monitor.step (.go .caller .proceed) = some (after, shown) ∧
      .returned .stop (.ok 0) ∈ shown ∧ 0 < after.pollers.length ∧ Silent after 0 := by
  obtain ⟨monitor, after, past, shown, run, taken, ended, started, early⟩ :=
    exists_givenUp (finding.take 3) (fun after => (after.cycleOf (.poller 0)).all fun phase =>
      !phase.isCommitted) (by decide +kernel)
  refine ⟨monitor, after, past, shown, create_freshMonitor, run, taken, ended, started, ?_⟩
  apply (silent_iff_of_stopped create_freshMonitor run taken ended started).mpr
  intro phase here
  simpa [here] using early

/-- A listener is called by a poller whose stop has ended. -/
theorem speaks_after_stop :
    ∃ (monitor after : Monitor) (past shown : List Event),
      create bareView ⟨[]⟩ ⟨[]⟩ { firstScan := .reportExisting } = .ok freshMonitor ∧
      Run freshMonitor past monitor ∧
      monitor.step (.go .caller .proceed) = some (after, shown) ∧
      .returned .stop (.ok 0) ∈ shown ∧ 0 < after.pollers.length ∧ ¬Silent after 0 := by
  obtain ⟨monitor, after, past, shown, run, taken, ended, started, speaks⟩ :=
    exists_givenUp finding (fun after => (after.steps anyStep [.go (.poller 0) .proceed]).any
      fun (_, more) => more.any (Event.isWordOf (.poller 0))) (by decide +kernel)
  refine ⟨monitor, after, past, shown, create_freshMonitor, run, taken, ended, started,
    fun silent => ?_⟩
  obtain ⟨last, more, goesOn, word⟩ := exists_run after _ anyStep (fun _ _ _ => trivial)
    (fun _ more => more.any (Event.isWordOf (.poller 0))) speaks
  have wordless := (silent more last goesOn).1
  simp [word] at wordless

end FolderWatch.Monitor
