import FolderWatch.Proofs.Monitor.Belonging

/-!
How a cycle crosses a change of the directory that comes at no calm moment: past its check it
publishes afterwards what it saw before, and on its way in it compares the two directories.
-/

namespace FolderWatch.Monitor

open Trace

variable {monitor : Monitor} {index : Nat} {target : Path}

theorem Always.last {ε : Type} {holds : List ε → ε → Prop} {past : List ε} {event : ε}
    (always : Always holds (past ++ [event])) : holds past event :=
  always past event [] rfl

def redirected (monitor : Monitor) (target : Path) : Monitor :=
  { monitor with directory := monitor.absolute target, control := .redirected target }

theorem run_redirected (control : monitor.control = .redirectable target) :
    Run monitor [] (monitor.redirected target) := by
  have taken : monitor.step (.go .caller .proceed) = some (monitor.redirected target, []) := by
    simp [step, stepControl, control, redirected]
  exact .of_step taken

theorem exists_publishing_across {phase : CyclePhase}
    (control : monitor.control = .redirectable target)
    (here : monitor.cycleOf (.poller index) = some phase) (committed : phase.isCommitted = true) :
    ∃ shown last, ∃ called : List Delivery, ∃ snapshot, Run monitor shown last ∧
      marks shown = .returned (.setDirectory target) (.ok 0) ::
        (called.map (.called (.poller index)) ++ [.published (.poller index) snapshot]) := by
  have ended : (monitor.redirected target).step (.go .caller .proceed) =
      some ({ monitor.redirected target with baseline := none, control := .free },
        [.returned (.setDirectory target) (.ok 0)]) := rfl
  have still : { monitor.redirected target with baseline := none, control := .free }.cycleOf
      (.poller index) = some phase := here
  obtain ⟨shown, last, called, snapshot, run, marked⟩ :=
    exists_publishing_of_committed still committed
  refine ⟨_, last, called, snapshot, ((run_redirected control).trans (Run.of_step ended)).trans run, ?_⟩
  rw [marks_append, marked]
  rfl

theorem enteredSince_called (past : List Event) (called : List Delivery) :
    enteredSince (.poller index) (past ++ .returned (.setDirectory target) (.ok 0) ::
      called.map (.called (.poller index))) = false := by
  have quiet (since : Bool) : (called.map (Event.called (.poller index))).foldl
      (Event.entersSince (.poller index)) since = since := by
    apply foldl_ignored
    intro event member
    obtain ⟨_, -, rfl⟩ := List.mem_map.mp member
    rfl
  simp [enteredSince, List.foldl_append, quiet, Event.entersSince]

theorem exists_consulting {comparison : Comparison}
    (here : monitor.cycleOf (.poller index) = some (.comparing comparison)) :
    ∃ shown last activity,
      Run monitor (shown ++ [.consulted (.poller index) activity comparison]) last := by
  -- Whether any recognizer is registered or not, one more may be by the time they are copied.
  let added : Activity := ⟨.held "recognizer", .custom "recognizer"⟩
  obtain ⟨activity, others, some⟩ : ∃ activity others,
      monitor.activities.add added = activity :: others := by
    cases monitor.activities with
    | nil => exact ⟨_, _, rfl⟩
    | cons => exact ⟨_, _, rfl⟩
  have registered : monitor.step (.addActivity added) =
      Option.some ({ monitor with activities := activity :: others }, []) := by
    simp only [step, some]
  have still : { monitor with activities := activity :: others }.cycleOf (.poller index) =
      Option.some (.comparing comparison) := here
  obtain ⟨_, equipped, there, -⟩ := exists_advance .proceed still rfl
  obtain ⟨_, surveyed, there, -⟩ := exists_advance .proceed there rfl
  obtain ⟨last, consulted, -⟩ := exists_advance .proceed there rfl
  exact ⟨_, last, activity,
    (((Run.of_step registered).trans equipped).trans surveyed).trans consulted⟩

/-- A cycle that has just entered looks up the new directory, and compares it with the old. -/
theorem exists_comparing_across {before : Snapshot}
    (control : monitor.control = .redirectable target)
    (here : monitor.cycleOf (.poller index) = some .entered)
    (baseline : monitor.baseline = some before) :
    ∃ shown last activity after, after.directory = monitor.absolute target ∧
      Run monitor (shown ++ [.consulted (.poller index) activity
        ⟨monitor.absolute target, before, after⟩]) last := by
  have still : (monitor.redirected target).cycleOf (.poller index) = some .entered := here
  obtain ⟨locating, located, there, stays, -⟩ := exists_advance .proceed still rfl
  have stays : locating.baseline = some before := stays.trans baseline
  obtain ⟨capturing, captured, there, kept, -⟩ := exists_advance (.saw bareView) there rfl
  have stays : capturing.baseline = some before := kept.trans stays
  let after := Snapshot.ofListing bareView (monitor.absolute target) []
  have recalls : capturing.stepCycle (.poller index) (.captured (monitor.absolute target) after)
      .proceed = some {
        phase := .comparing ⟨monitor.absolute target, before, after⟩
        shown := [.recalled (.poller index) (some before)] } := by
    simp [stepCycle, stays]
  obtain ⟨comparing, recalled, there, -⟩ := exists_advance .proceed there recalls
  obtain ⟨shown, last, activity, consulted⟩ := exists_consulting there
  have run := ((((run_redirected control).trans located).trans captured).trans recalled).trans
    consulted
  rw [← List.append_assoc] at run
  exact ⟨_, last, activity, after, Snapshot.directory_ofListing .., run⟩

theorem exists_idle (coherent : Coherent monitor) (exclusive : monitor.Exclusive)
    (redirect : monitor.control.isRedirect = true)
    (uncommitted : ∀ actor phase, monitor.cycleOf actor = some phase → phase.isCommitted = false)
    (here : monitor.cycleOf (.poller index) = some .waiting) :
    ∃ shown last other, Run monitor shown last ∧ last.isCycling = false ∧
      last.cycleOf (.poller index) = some .waiting ∧ last.baseline = monitor.baseline ∧
      Kept other monitor last := by
  cases cycling : monitor.isCycling with
  | false => exact ⟨[], monitor, index, .rest monitor, cycling, here, rfl, .refl monitor⟩
  | true =>
      obtain ⟨actor, phase, inCycle, inside⟩ := isCycling_iff.mp cycling
      have stale := coherent.stale_of_redirect redirect inCycle
      cases actor with
      | caller => exact stale.elim
      | poller other =>
          obtain ⟨shown, last, run, gone, baseline, kept⟩ :=
            canLeave_of_stale stale inCycle inside (uncommitted _ phase inCycle)
          have different : (Actor.poller index) ≠ .poller other := by
            intro same
            cases here.symm.trans (same ▸ inCycle)
            simp [CyclePhase.isInside] at inside
          have idle : last.isCycling = false := by
            cases still : last.isCycling with
            | false => rfl
            | true =>
                obtain ⟨third, thirdPhase, thirdHere, thirdInside⟩ := isCycling_iff.mp still
                by_cases same : third = .poller other
                · simp [same, gone] at thirdHere
                · rw [kept.others third same] at thirdHere
                  exact absurd (exclusive third _ ⟨thirdPhase, thirdHere, thirdInside⟩
                    ⟨phase, inCycle, inside⟩) same
          exact ⟨shown, last, other, run, idle, (kept.others _ different).trans here, baseline, kept⟩

theorem exists_entered {phase : CyclePhase} (coherent : Coherent monitor)
    (exclusive : monitor.Exclusive) (control : monitor.control = .redirectable target)
    (uncommitted : ∀ actor phase, monitor.cycleOf actor = some phase → phase.isCommitted = false)
    (here : monitor.cycleOf (.poller index) = some phase)
    (outside : phase = .waiting ∨ phase = .entered) :
    ∃ shown last, Run monitor shown last ∧ last.cycleOf (.poller index) = some .entered ∧
      last.baseline = monitor.baseline ∧ last.control = .redirectable target ∧
      last.absolute target = monitor.absolute target := by
  rcases outside with rfl | rfl
  · obtain ⟨shown, middle, other, run, idle, waiting, baseline, kept⟩ :=
      exists_idle coherent exclusive (by simp [control, Control.isRedirect]) uncommitted here
    have enters : middle.stepCycle (.poller index) .waiting .proceed = some {
        phase := .entered, shown := [.entered (.poller index)] } := by
      simp [stepCycle, idle]
    obtain ⟨last, further, entered, still, keeps⟩ := exists_advance .proceed waiting enters
    refine ⟨_, last, run.trans further, entered, still.trans baseline,
      keeps.control.trans (kept.control.trans control), ?_⟩
    simp only [absolute, keeps.workingDirectory, kept.workingDirectory]
  · exact ⟨[], monitor, .rest monitor, here, rfl, control, rfl⟩

/-- The baseline belongs to the directory, and nothing crosses a change of it, as long as the
directory changes at calm moments only; at any other moment something can cross. -/
theorem baseline_belongs {view : DirectoryView} {workingDirectory path : Path}
    {settings : PollSettings} {fresh : Monitor}
    (created : create view workingDirectory path settings = .ok fresh) :
    (∀ shown last, RunOf CalmStep fresh shown last → Belongs shown last) ∧
      ∀ shown monitor target, Run fresh shown monitor →
        monitor.control = .redirectable target → ¬Calm monitor (monitor.absolute target) →
          ∃ more last, Run monitor more last ∧ ¬Belongs (shown ++ more) last := by
  refine ⟨fun shown last run => (Belonging.run created run).belongs, ?_⟩
  intro shown monitor target run control restless
  have coherent := Coherent.run created run
  have exclusive := Exclusive.run created run
  have redirect : monitor.control.isRedirect = true := by simp [control, Control.isRedirect]
  have pollers {actor : Actor} {phase : CyclePhase} (here : monitor.cycleOf actor = some phase) :
      ∃ index, actor = .poller index := by
    cases actor with
    | caller => exact (coherent.stale_of_redirect redirect here).elim
    | poller index => exact ⟨index, rfl⟩
  -- A cycle past its check brings its capture across; failing that, one on its way in brings the old
  -- baseline across.
  by_cases uncommitted : ∀ actor phase, monitor.cycleOf actor = some phase →
      phase.isCommitted = false
  · have unsettled : ¬(Matches monitor (monitor.absolute target) ∨ _) :=
      fun settled => restless ⟨uncommitted, settled⟩
    simp only [Matches, not_or, Classical.not_forall, Classical.not_and_iff_not_or_not,
      Classical.not_not, exists_prop] at unsettled
    obtain ⟨⟨before, baseline, different⟩, actor, phase, here, outside⟩ := unsettled
    obtain ⟨index, rfl⟩ := pollers here
    obtain ⟨entering, middle, enters, entered, kept, still, same⟩ :=
      exists_entered coherent exclusive control uncommitted here outside
    obtain ⟨more, last, activity, after, fresh, crosses⟩ :=
      exists_comparing_across still entered (kept.trans baseline)
    refine ⟨_, last, enters.trans crosses, fun belongs => different ?_⟩
    have fair := belongs.2
    rw [← List.append_assoc, ← List.append_assoc, marks_append] at fair
    have compared := Always.last fair
    rw [← same, ← fresh]
    exact compared
  · simp only [Classical.not_forall, exists_prop, Bool.not_eq_false] at uncommitted
    obtain ⟨actor, phase, here, committed⟩ := uncommitted
    obtain ⟨index, rfl⟩ := pollers here
    obtain ⟨more, last, called, snapshot, crosses, marked⟩ :=
      exists_publishing_across control here committed
    refine ⟨more, last, crosses, fun belongs => ?_⟩
    have fair := belongs.2
    rw [marks_append, marked, ← List.cons_append, ← List.append_assoc] at fair
    have since := Always.last fair
    simp [Fair, enteredSince_called] at since

def changingAfter (turns : List Signal) : List Action :=
  givenUpAfter turns ++
    [.go .caller .proceed, .call (.setDirectory ⟨[98]⟩), .go .caller (.saw bareView)]

def handing : List Signal := [.proceed, .handled .accepted, .proceed, .proceed]

def calmly (monitor : Monitor) (_ : Action) : Bool :=
  match monitor.control with
  | .redirectable _ => monitor.pollers.all fun poller => poller.phase.cycle?.isNone
  | _ => true

theorem calmStep_of_calmly (monitor : Monitor) (action : Action)
    (calm : calmly monitor action = true) : CalmStep monitor action := by
  intro after shown target _ control _
  have nobody (actor : Actor) : monitor.cycleOf actor = none := by
    cases actor with
    | caller => simp [cycleOf, control, Control.cycle?]
    | poller index =>
        simp only [calmly, control, List.all_eq_true, Option.isNone_iff_eq_none] at calm
        simp only [cycleOf, Option.bind_eq_none_iff]
        exact fun poller found => calm poller (List.mem_of_getElem? found)
  exact ⟨by simp [nobody], .inr (by simp [nobody])⟩

/-- The directory changes when the poller given up is at rest; another time it is past its check. -/
theorem baseline_belongs_at_rest :
    create bareView ⟨[]⟩ ⟨[]⟩ { firstScan := .reportExisting } = .ok freshMonitor ∧
      (∃ shown last, RunOf CalmStep freshMonitor shown last ∧ last.directory = ⟨[98]⟩ ∧
        Belongs shown last) ∧
      ∃ shown monitor, Run freshMonitor shown monitor ∧
        monitor.control = .redirectable ⟨[98]⟩ ∧ ¬Calm monitor (monitor.absolute ⟨[98]⟩) ∧
          ∃ more last, Run monitor more last ∧ ¬Belongs (shown ++ more) last := by
  obtain ⟨changes, crosses⟩ := baseline_belongs create_freshMonitor
  refine ⟨create_freshMonitor, ?_, ?_⟩
  · obtain ⟨last, shown, run, changed⟩ := exists_run freshMonitor
      (changingAfter (finding ++ handing ++ [.proceed]) ++ [.go .caller .proceed, .go .caller .proceed])
      calmly calmStep_of_calmly (fun last _ => decide (last.directory = ⟨[98]⟩)) (by decide +kernel)
    exact ⟨shown, last, run, by simpa using changed, changes shown last run⟩
  · obtain ⟨monitor, shown, run, checked⟩ := exists_run freshMonitor (changingAfter finding) anyStep
      (fun _ _ _ => trivial) (fun monitor _ =>
        (monitor.cycleOf (.poller 0)).any CyclePhase.isCommitted &&
          match monitor.control with
          | .redirectable target => decide (target = ⟨[98]⟩)
          | _ => false) (by decide +kernel)
    simp only [Bool.and_eq_true, Option.any_eq_true] at checked
    obtain ⟨⟨phase, here, committed⟩, about⟩ := checked
    have control : monitor.control = .redirectable ⟨[98]⟩ := by
      split at about
      · simp_all
      · simp at about
    have restless : ¬Calm monitor (monitor.absolute ⟨[98]⟩) := by
      intro calm
      simp [calm.uncommitted _ phase here] at committed
    exact ⟨shown, monitor, run, control, restless, crosses shown monitor _ run control restless⟩

def holdsOther (monitor : Monitor) : Bool :=
  monitor.baseline.any fun before => !decide (before.directory.Same monitor.directory)

/-- A stopped poller publishes a snapshot of the directory that was watched before. -/
theorem baseline_of_other_directory :
    ∃ (shown : List Event) (last : Monitor),
      create bareView ⟨[]⟩ ⟨[]⟩ { firstScan := .reportExisting } = .ok freshMonitor ∧
      Run freshMonitor shown last ∧ last.control.isRedirect = false ∧
      ¬Matches last last.directory := by
  obtain ⟨last, shown, run, checked⟩ := exists_run freshMonitor
    (changingAfter finding ++ [.go .caller .proceed, .go .caller .proceed] ++
      handing.map (.go (.poller 0))) anyStep (fun _ _ _ => trivial)
    (fun last _ => !last.control.isRedirect && holdsOther last) (by decide +kernel)
  simp only [holdsOther, Bool.and_eq_true, Bool.not_eq_true', Option.any_eq_true,
    decide_eq_false_iff_not] at checked
  obtain ⟨outside, snapshot, baseline, other⟩ := checked
  exact ⟨shown, last, create_freshMonitor, run, outside, fun matching =>
    other (matching snapshot baseline)⟩

end FolderWatch.Monitor
