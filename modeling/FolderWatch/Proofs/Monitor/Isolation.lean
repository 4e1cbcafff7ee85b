import FolderWatch.Proofs.Monitor.Accounts

/-!
A recognizer or a listener that fails touches nobody else. What a cycle hands to whom, what it
counts and what it leaves as the baseline are settled by the recognizers that found something and by
the listeners there were; and no answer keeps it from its end.
-/

namespace FolderWatch.Monitor

/-- How a cycle ends that was found current, by its account. -/
structure Finished (actor : Actor) (comparison : Comparison) (account : Account)
    (shown : List Event) (result : Except Fault Nat) : Prop where
  asked : account.asked.map Prod.fst = account.activities
  current : account.current = some true
  told : account.told.map Prod.fst = (reportsOf comparison account.asked).flatMap fun report =>
    account.subscribers.map fun subscriber => ⟨subscriber, report⟩
  outcome : outcome actor shown =
    (account.told.map Prod.fst).map (.called actor) ++ [.published actor comparison.after]
  result : result = .ok ((reportsOf comparison account.asked).flatMap Report.changes).length

variable {first last : Monitor} {actor : Actor} {comparison : Comparison} {account : Account}
  {shown : List Event} {result : Except Fault Nat}

theorem outcome_decision (asked : List Asked) : outcome actor (decision actor comparison asked) = [] := by
  apply List.filter_eq_nil_iff.mpr
  intro event member
  rcases List.mem_append.mp member with consulted | decided
  · obtain ⟨_, -, rfl⟩ := List.mem_map.mp consulted
    simp [Event.isOutcomeOf]
  · simp [List.mem_singleton.mp decided, Event.isOutcomeOf]

theorem outcome_calls (told : List (Delivery × Verdict)) :
    outcome actor (calls actor told) = calls actor told := by
  apply List.filter_eq_self.mpr
  intro event member
  obtain ⟨delivery, -, rfl⟩ := List.mem_map.mp member
  simp [Event.isOutcomeOf]

theorem CycleRun.finished (run : CycleRun first actor account shown last)
    (begins : first.cycleOf actor = some (.comparing comparison))
    (ended : last.cycleOf actor = some (.leaving result)) (current : .dropped actor ∉ shown) :
    Finished actor comparison account shown result := by
  obtain ⟨phase, here, reached⟩ := run.reached begins
  cases ended.symm.trans here
  -- Only a cycle that published or was dropped is leaving.
  generalize events : own actor shown = past at reached
  generalize leaving : CyclePhase.leaving result = phase at reached
  cases reached with
  | published all =>
      cases leaving
      refine ⟨rfl, rfl, all, ?_, rfl⟩
      rw [← outcome_own, events, outcome_append, outcome_append, outcome_decision, outcome_calls]
      simp [outcome, calls, Event.isOutcomeOf]
  | dropped => exact absurd ((run.dropped_iff begins).mpr rfl) current
  | _ => cases leaving

section Progress

/-- A list that goes on, each place of it filled as picked for that place. -/
def Continues {α β : Type} (pick : Nat → β) (before after : List (α × β)) : Prop :=
  ∃ more : List α, after =
    before ++ (more.zipIdx before.length).map fun (item, index) => (item, pick index)

theorem Continues.refl {α β : Type} (pick : Nat → β) (list : List (α × β)) :
    Continues pick list list := ⟨[], by simp⟩

theorem Continues.one {α β : Type} (pick : Nat → β) (list : List (α × β)) (item : α) :
    Continues pick list (list ++ [(item, pick list.length)]) := ⟨[item], by simp⟩

theorem Continues.trans {α β : Type} {pick : Nat → β} {before middle after : List (α × β)}
    (first : Continues pick before middle) (second : Continues pick middle after) :
    Continues pick before after := by
  obtain ⟨some, rfl⟩ := first
  obtain ⟨more, rfl⟩ := second
  refine ⟨some ++ more, ?_⟩
  simp [List.zipIdx_append]

/-- The calls made between two accounts came to what was to come of them. -/
structure Account.Heeds (answers : Nat → Option (List Change)) (verdicts : Nat → Verdict)
    (before after : Account) : Prop where
  asked : Continues answers before.asked after.asked
  told : Continues verdicts before.told after.told

variable {answers : Nat → Option (List Change)} {verdicts : Nat → Verdict} {middle : Monitor}

theorem Account.Heeds.refl (account : Account) : account.Heeds answers verdicts account :=
  ⟨.refl _ _, .refl _ _⟩

theorem Account.Heeds.trans {before between after : Account}
    (first : before.Heeds answers verdicts between)
    (second : between.Heeds answers verdicts after) :
    before.Heeds answers verdicts after :=
  ⟨first.asked.trans second.asked, first.told.trans second.told⟩

/-- A run in which nobody but one actor goes on. -/
abbrev RunBy (actor : Actor) : Monitor → List Event → Monitor → Prop :=
  RunOf fun _ action => ∃ signal, action = .go actor signal

/-- The cycle can go on alone to its end, with these answers to the calls left. -/
def CanEnd (answers : Nat → Option (List Change)) (verdicts : Nat → Verdict) (first : Monitor)
    (actor : Actor) (account : Account) (shown : List Event) (middle : Monitor) : Prop :=
  ∃ whole more last result, CycleRun first actor whole (shown ++ more) last ∧
    RunBy actor middle more last ∧ last.cycleOf actor = some (.leaving result) ∧
    account.Heeds answers verdicts whole

theorem canEnd_of_leaving (run : CycleRun first actor account shown middle)
    (here : middle.cycleOf actor = some (.leaving result)) :
    CanEnd answers verdicts first actor account shown middle :=
  ⟨account, [], middle, result, by simpa using run, .rest middle, here, .refl account⟩

theorem CycleRun.goes {phase : CyclePhase} {step : CycleStep} (signal : Signal)
    (run : CycleRun first actor account shown middle) (here : middle.cycleOf actor = some phase)
    (goes : middle.stepCycle actor phase signal = some step) :
    ∃ after, CycleRun first actor (account.after middle actor phase signal)
        (shown ++ step.shown) after ∧
      RunBy actor middle step.shown after ∧ after.cycleOf actor = some step.phase := by
  have taken := step_of_stepCycle here goes
  have begins : RunBy actor middle [] middle := .rest middle
  exact ⟨_, run.goesOn here (unfinished_of_stepCycle goes) taken,
    begins.step _ ⟨signal, rfl⟩ taken, cycleOf_go here step⟩

theorem canEnd_of_step {phase : CyclePhase} {step : CycleStep} (signal : Signal)
    (run : CycleRun first actor account shown middle) (here : middle.cycleOf actor = some phase)
    (goes : middle.stepCycle actor phase signal = some step)
    (heeds : account.Heeds answers verdicts (account.after middle actor phase signal))
    (onwards : ∀ after, CycleRun first actor (account.after middle actor phase signal)
      (shown ++ step.shown) after → after.cycleOf actor = some step.phase →
        CanEnd answers verdicts first actor (account.after middle actor phase signal)
          (shown ++ step.shown) after) :
    CanEnd answers verdicts first actor account shown middle := by
  obtain ⟨after, goesOn, alone, there⟩ := run.goes signal here goes
  obtain ⟨whole, more, last, result, wholeRun, further, ended, later⟩ := onwards after goesOn there
  rw [List.append_assoc] at wholeRun
  exact ⟨whole, _, last, result, wholeRun, alone.trans further, ended, heeds.trans later⟩

theorem canEnd_of_storing {snapshot : Snapshot} {produced : Nat}
    (run : CycleRun first actor account shown middle)
    (here : middle.cycleOf actor = some (.storing snapshot produced)) :
    CanEnd answers verdicts first actor account shown middle :=
  canEnd_of_step .proceed run here rfl (.refl account) fun _ => canEnd_of_leaving

theorem canEnd_of_dispatching {left : List Delivery} {produced : Nat}
    (run : CycleRun first actor account shown middle)
    (here : middle.cycleOf actor = some (.dispatching comparison left produced)) :
    CanEnd answers verdicts first actor account shown middle := by
  -- By induction on the calls left, whatever each of them comes to.
  induction left generalizing account shown middle with
  | nil => exact canEnd_of_step .proceed run here rfl (.refl account) fun _ => canEnd_of_storing
  | cons delivery left ih =>
      refine canEnd_of_step .proceed run here rfl (.refl account) fun calling run here => ?_
      have heeds : account.Heeds answers verdicts
          { account with told := account.told ++ [(delivery, verdicts account.told.length)] } :=
        ⟨.refl _ _, .one _ _ _⟩
      exact canEnd_of_step (.handled (verdicts account.told.length)) run here rfl heeds fun _ => ih

theorem canEnd_of_delivering {delivery : Delivery} {left : List Delivery} {produced : Nat}
    (run : CycleRun first actor account shown middle)
    (here : middle.cycleOf actor = some (.delivering delivery comparison left produced)) :
    CanEnd answers verdicts first actor account shown middle := by
  have heeds : account.Heeds answers verdicts
      { account with told := account.told ++ [(delivery, verdicts account.told.length)] } :=
    ⟨.refl _ _, .one _ _ _⟩
  exact canEnd_of_step (.handled (verdicts account.told.length)) run here rfl heeds fun _ =>
    canEnd_of_dispatching

theorem canEnd_of_recognizing {subscribers : List Subscriber} {left : List Activity}
    {reports : List Report} (run : CycleRun first actor account shown middle)
    (here : middle.cycleOf actor = some (.recognizing ⟨comparison, subscribers, left, reports⟩)) :
    CanEnd answers verdicts first actor account shown middle := by
  -- By induction on the recognizers left, whatever each of them answers.
  induction left generalizing account shown middle reports with
  | nil =>
      by_cases current : middle.isCurrent actor = true
      · have decides : middle.stepCycle actor (.recognizing ⟨comparison, subscribers, [], reports⟩)
            .proceed = some {
              phase := .dispatching comparison (deliveries reports subscribers)
                (reports.flatMap Report.changes).length
              shown := [.decided actor comparison reports] } := by
          simp [stepCycle, current, Survey.produced]
        exact canEnd_of_step .proceed run here decides ⟨.refl _ _, .refl _ _⟩ fun _ =>
          canEnd_of_dispatching
      · have drops : middle.stepCycle actor (.recognizing ⟨comparison, subscribers, [], reports⟩)
            .proceed = some {
              phase := .leaving (.ok 0)
              shown := [.dropped actor,
                .logged actor (CyclePhase.droppedLine comparison.directory)] } := by
          simp [stepCycle, current]
        exact canEnd_of_step .proceed run here drops ⟨.refl _ _, .refl _ _⟩ fun _ =>
          canEnd_of_leaving
  | cons activity left ih =>
      refine canEnd_of_step .proceed run here rfl (.refl account) fun asking run here => ?_
      have heeds : account.Heeds answers verdicts
          { account with asked := account.asked ++ [(activity, answers account.asked.length)] } :=
        ⟨.one _ _ _, .refl _ _⟩
      refine canEnd_of_step (.recognized (answers account.asked.length)) run here rfl heeds
        fun after run here => ?_
      obtain ⟨found, noted⟩ := exists_note ⟨comparison, subscribers, left, reports⟩ activity
        (activity.answer comparison (answers account.asked.length))
      exact ih run (noted ▸ here)

theorem canEnd_of_consulting {activity : Activity} {survey : Survey}
    (run : CycleRun first actor account shown middle)
    (here : middle.cycleOf actor = some (.consulting activity survey)) :
    CanEnd answers verdicts first actor account shown middle := by
  have heeds : account.Heeds answers verdicts
      { account with asked := account.asked ++ [(activity, answers account.asked.length)] } :=
    ⟨.one _ _ _, .refl _ _⟩
  exact canEnd_of_step (.recognized (answers account.asked.length)) run here rfl heeds
    fun _ run here => canEnd_of_recognizing run here

theorem canEnd_of_equipped {activities : List Activity}
    (run : CycleRun first actor account shown middle)
    (here : middle.cycleOf actor = some (.equipped comparison activities)) :
    CanEnd answers verdicts first actor account shown middle :=
  canEnd_of_step .proceed run here rfl ⟨.refl _ _, .refl _ _⟩ fun _ => canEnd_of_recognizing

theorem canEnd_of_comparing (run : CycleRun first actor account shown middle)
    (here : middle.cycleOf actor = some (.comparing comparison)) :
    CanEnd answers verdicts first actor account shown middle :=
  canEnd_of_step .proceed run here rfl ⟨.refl _ _, .refl _ _⟩ fun _ => canEnd_of_equipped

theorem canEnd_of_adopting {directory : Path} {snapshot : Snapshot}
    (run : CycleRun first actor account shown middle)
    (here : middle.cycleOf actor = some (.adopting directory snapshot)) :
    CanEnd answers verdicts first actor account shown middle := by
  by_cases current : middle.isCurrent actor = true
  · have accepts : middle.stepCycle actor (.adopting directory snapshot) .proceed = some {
        phase := .storing snapshot 0
        shown := [.logged actor (CyclePhase.adoptedLine directory snapshot)] } := by
      simp [stepCycle, current]
    exact canEnd_of_step .proceed run here accepts ⟨.refl _ _, .refl _ _⟩ fun _ => canEnd_of_storing
  · have refuses : middle.stepCycle actor (.adopting directory snapshot) .proceed = some {
        phase := .leaving (.ok 0), shown := [.dropped actor] } := by
      simp [stepCycle, current]
    exact canEnd_of_step .proceed run here refuses ⟨.refl _ _, .refl _ _⟩ fun _ =>
      canEnd_of_leaving

theorem canEnd_of_captured {directory : Path} {snapshot : Snapshot}
    (run : CycleRun first actor account shown middle)
    (here : middle.cycleOf actor = some (.captured directory snapshot)) :
    CanEnd answers verdicts first actor account shown middle := by
  refine canEnd_of_step .proceed run here rfl (.refl account) fun after run there => ?_
  split at there
  · exact canEnd_of_comparing run there
  · exact canEnd_of_adopting run there
  · exact canEnd_of_comparing run there

theorem canEnd_of_located {directory : Path} (run : CycleRun first actor account shown middle)
    (here : middle.cycleOf actor = some (.located directory)) :
    CanEnd answers verdicts first actor account shown middle :=
  canEnd_of_step (.saw bareView) run here rfl ⟨.refl _ _, .refl _ _⟩ fun _ => canEnd_of_captured

/-- At no point can others, or what is still to be answered, keep a cycle from its end. -/
theorem CycleRun.canEnd {phase : CyclePhase} (run : CycleRun first actor account shown middle)
    (here : middle.cycleOf actor = some phase) (inside : phase.isInside = true)
    (answers : Nat → Option (List Change)) (verdicts : Nat → Verdict) :
    CanEnd answers verdicts first actor account shown middle := by
  cases phase with
  | waiting => simp [CyclePhase.isInside] at inside
  | entered =>
      exact canEnd_of_step .proceed run here rfl (.refl account) fun _ => canEnd_of_located
  | located => exact canEnd_of_located run here
  | captured => exact canEnd_of_captured run here
  | adopting => exact canEnd_of_adopting run here
  | comparing => exact canEnd_of_comparing run here
  | equipped => exact canEnd_of_equipped run here
  | recognizing => exact canEnd_of_recognizing run here
  | consulting => exact canEnd_of_consulting run here
  | dispatching => exact canEnd_of_dispatching run here
  | delivering => exact canEnd_of_delivering run here
  | storing => exact canEnd_of_storing run here
  | leaving => exact canEnd_of_leaving run here

end Progress

/-- What a cycle hands to one listener. -/
def handedTo (actor : Actor) (subscriber : Subscriber) (shown : List Event) : List Report :=
  shown.filterMap fun
    | .called other delivery =>
        if other = actor ∧ delivery.subscriber = subscriber then some delivery.report else none
    | _ => none

theorem handedTo_append (subscriber : Subscriber) (front tail : List Event) :
    handedTo actor subscriber (front ++ tail) =
      handedTo actor subscriber front ++ handedTo actor subscriber tail :=
  List.filterMap_append ..

theorem handedTo_outcome (subscriber : Subscriber) (shown : List Event) :
    handedTo actor subscriber (outcome actor shown) = handedTo actor subscriber shown := by
  unfold handedTo outcome
  rw [List.filterMap_filter]
  congr 1
  funext event
  cases event with
  | called other delivery => by_cases own : other = actor <;> simp [Event.isOutcomeOf, own]
  | _ => simp

theorem Finished.published (finished : Finished actor comparison account shown result) :
    .published actor comparison.after ∈ shown := by
  have member : .published actor comparison.after ∈ Monitor.outcome actor shown := by
    rw [finished.outcome]
    simp
  exact (List.mem_filter.mp member).1

/-- A listener is handed every report as often as it is registered, the reports in their order. -/
theorem Finished.handed (finished : Finished actor comparison account shown result)
    (subscriber : Subscriber) :
    handedTo actor subscriber shown =
      (reportsOf comparison account.asked).flatMap fun report =>
        (account.subscribers.filter (· = subscriber)).map fun _ => report := by
  have each (subscribers : List Subscriber) (report : Report) :
      handedTo actor subscriber
          ((subscribers.map fun one => (⟨one, report⟩ : Delivery)).map (.called actor)) =
        (subscribers.filter (· = subscriber)).map fun _ => report := by
    induction subscribers with
    | nil => rfl
    | cons one rest ih => by_cases same : one = subscriber <;> simp_all [handedTo]
  rw [← handedTo_outcome, finished.outcome, finished.told]
  generalize reportsOf comparison account.asked = reports
  induction reports with
  | nil => rfl
  | cons report rest ih =>
      rw [List.flatMap_cons, List.map_append, List.append_assoc, handedTo_append, ih, each,
        List.flatMap_cons]

/-- A scan that a caller asked for is always current. -/
theorem CycleRun.current (run : CycleRun first .caller account shown last)
    (begins : first.cycleOf .caller = some (.comparing comparison)) :
    .dropped .caller ∉ shown := by
  induction run with
  | rest => simp
  | aside run others taken ih =>
      obtain ⟨phase, here, -⟩ := run.reached begins
      have elsewhere := (aside_step here others taken).2
      rw [List.mem_append, not_or]
      exact ⟨ih, fun now => elsewhere _ now rfl⟩
  | goesOn run here unfinished taken ih =>
      obtain ⟨step, goes, rfl, rfl⟩ := exists_stepCycle here unfinished taken
      rw [List.mem_append, not_or]
      refine ⟨ih, ?_⟩
      cases stepCycle_move goes with
      | refused stale | drops stale => simp [isCurrent, generationOf] at stale
      | _ => simp

theorem reportsOf_filter (comparison : Comparison) (asked : List Asked) :
    reportsOf comparison (asked.filter fun asked => (reportOf? comparison asked).isSome) =
      reportsOf comparison asked := by
  rw [reportsOf, reportsOf, List.filterMap_filter]
  congr 1
  funext asked
  cases reportOf? comparison asked <;> rfl

/-- A cycle goes on from its comparison while anyone else does anything, and its recognizers and
listeners answer or fail as they please. It can always be brought to its end, and nothing but its
check can drop it, which finds a scan always and a poller in its own generation current. A current
cycle has then called every listener it copied once for each report, in order, counted all of them
and made its capture the baseline. What a listener is handed and what is counted depend on nothing
but the calls of recognizers that found something and on how often the listener is registered. -/
theorem faults_isolated {view : DirectoryView} {workingDirectory path : Path}
    {settings : PollSettings} {fresh : Monitor} {past : List Event}
    (created : create view workingDirectory path settings = .ok fresh)
    (reached : Run fresh past first)
    (begins : first.cycleOf actor = some (.comparing comparison)) :
    (∀ account shown middle, CycleRun first actor account shown middle →
      (.dropped actor ∈ shown ↔ account.current = some false) ∧
      (actor = .caller → .dropped actor ∉ shown) ∧
        ∀ answers verdicts, CanEnd answers verdicts first actor account shown middle) ∧
    ∀ account shown last result, CycleRun first actor account shown last →
      last.cycleOf actor = some (.leaving result) → .dropped actor ∉ shown →
        Finished actor comparison account shown result ∧
        ((∀ target, .returned (.setDirectory target) (.ok 0) ∉ shown) →
          last.baseline = some comparison.after) ∧
        ∀ other otherActor otherAccount otherShown otherLast otherResult,
          other.cycleOf otherActor = some (.comparing comparison) →
          CycleRun other otherActor otherAccount otherShown otherLast →
          otherLast.cycleOf otherActor = some (.leaving otherResult) →
          .dropped otherActor ∉ otherShown →
          (account.asked.filter fun asked => (reportOf? comparison asked).isSome) =
            (otherAccount.asked.filter fun asked => (reportOf? comparison asked).isSome) →
          result = otherResult ∧ ∀ subscriber,
            account.subscribers.filter (· = subscriber) =
              otherAccount.subscribers.filter (· = subscriber) →
            handedTo actor subscriber shown = handedTo otherActor subscriber otherShown := by
  refine ⟨fun account shown middle run => ⟨run.dropped_iff begins, ?_, ?_⟩, ?_⟩
  · rintro rfl
    exact run.current begins
  · obtain ⟨phase, here, reached⟩ := run.reached begins
    exact run.canEnd here reached.isInside
  intro account shown last result run ended current
  have finished := run.finished begins ended current
  refine ⟨finished, fun steady => ?_, ?_⟩
  · exact run.baseline begins (Exclusive.run created reached) steady finished.published
  · intro other otherActor otherAccount otherShown otherLast otherResult otherBegins otherRun
      otherEnded otherCurrent found
    have otherFinished := otherRun.finished otherBegins otherEnded otherCurrent
    have reports : reportsOf comparison account.asked =
        reportsOf comparison otherAccount.asked := by
      rw [← reportsOf_filter, found, reportsOf_filter]
    refine ⟨?_, fun subscriber registered => ?_⟩
    · rw [finished.result, otherFinished.result, reports]
    · rw [finished.handed, otherFinished.handed, reports, registered]

/-- The account after an action, unless the action is past the end of the cycle. -/
def Account.follow (account : Account) (actor : Actor) (monitor : Monitor) :
    Action → Option Account
  | .go other signal =>
      if other = actor then
        match monitor.cycleOf actor with
        | none | some (.leaving _) => none
        | some phase => some (account.after monitor actor phase signal)
      else some account
  | _ => some account

theorem CycleRun.follow {middle : Monitor} {action : Action} {next : Account} {more : List Event}
    (run : CycleRun first actor account shown middle)
    (followed : account.follow actor middle action = some next)
    (taken : middle.step action = some (last, more)) :
    CycleRun first actor next (shown ++ more) last := by
  unfold Account.follow at followed
  split at followed
  · rename_i other signal
    split at followed
    · rename_i own
      subst own
      split at followed
      · cases followed
      · cases followed
      · rename_i phase unfinished here
        cases followed
        exact run.goesOn here unfinished taken
    · rename_i others
      cases followed
      refine run.aside (fun own same => ?_) taken
      cases same
      exact others rfl
  · rename_i others
    cases followed
    exact run.aside (fun signal same => others actor signal same) taken

def follows (actor : Actor) (account : Account) (monitor : Monitor) :
    List Action → Option (Account × List Event × Monitor)
  | [] => some (account, [], monitor)
  | action :: rest =>
      match account.follow actor monitor action, monitor.step action with
      | some next, some (after, shown) =>
          (follows actor next after rest).map fun (account, more, last) =>
            (account, shown ++ more, last)
      | _, _ => none

theorem CycleRun.follows {middle : Monitor} {whole : Account} {more : List Event}
    (run : CycleRun first actor account shown middle) (actions : List Action)
    (followed : Monitor.follows actor account middle actions = some (whole, more, last)) :
    CycleRun first actor whole (shown ++ more) last := by
  induction actions generalizing account shown middle more with
  | nil =>
      simp only [Monitor.follows, Option.some.injEq, Prod.mk.injEq] at followed
      obtain ⟨rfl, rfl, rfl⟩ := followed
      simpa using run
  | cons action rest ih =>
      simp only [Monitor.follows] at followed
      split at followed
      · rename_i next after early accounted taken
        simp only [Option.map_eq_some_iff, Prod.mk.injEq, Prod.exists] at followed
        obtain ⟨_, later, _, goes, rfl, rfl, rfl⟩ := followed
        simpa using ih (run.follow accounted taken) goes
      · simp at followed

def bystander : Subscriber := ⟨.held "bystander"⟩

def foundFile : Change := .created ⟨.ofString "a", 1, 1⟩

/-- Three recognizers and three listeners are registered and a scan has made its comparison. -/
def comparingAll : List Action := [
  .addActivity ⟨.held "panics", .custom "panics"⟩, .addActivity ⟨.held "mute", .custom "mute"⟩,
  .addActivity ⟨.held "finds", .custom "finds"⟩, .addListener ⟨.held "fails"⟩,
  .addListener ⟨.held "panics"⟩, .addListener bystander, .call .scan, .go .caller .proceed,
  .go .caller .proceed, .go .caller (.saw bareView), .go .caller .proceed]

/-- One recognizer panics, one finds nothing, one takes the last listener off; then one listener
fails and one panics. -/
def faultyCycle : List Action := [
  .go .caller .proceed, .go .caller .proceed, .go .caller .proceed, .go .caller (.recognized none),
  .go .caller .proceed, .go .caller (.recognized (some [])), .go .caller .proceed,
  .removeListener (.held "bystander"), .go .caller (.recognized (some [foundFile])),
  .go .caller .proceed, .go .caller .proceed, .go .caller (.handled (.failed "rejected")),
  .go .caller .proceed, .go .caller (.handled .panicked), .go .caller .proceed,
  .go .caller (.handled .accepted), .go .caller .proceed, .go .caller .proceed]

def comparing? : CyclePhase → Option Comparison
  | .comparing comparison => some comparison
  | _ => none

theorem eq_comparing {phase : CyclePhase} {comparison : Comparison}
    (found : comparing? phase = some comparison) : phase = .comparing comparison := by
  cases phase <;> simp_all [comparing?]

def leavingWith? : CyclePhase → Option Nat
  | .leaving (.ok produced) => some produced
  | _ => none

theorem eq_leaving {phase : CyclePhase} {produced : Nat}
    (found : leavingWith? phase = some produced) : phase = .leaving (.ok produced) := by
  cases phase with
  | leaving result => cases result <;> simp_all [leavingWith?]
  | _ => simp [leavingWith?] at found

/-- A scan of a caller in which these actions lead to a comparison and those to the end of its cycle,
with what is asked for. -/
def cycleChecks (opening rest : List Action) (check : Nat → Account → List Event → Bool) : Bool :=
  (freshMonitor.steps anyStep opening).any fun (first, _) =>
    ((first.cycleOf .caller).bind comparing?).isSome &&
      (follows .caller {} first rest).any fun (account, shown, last) =>
        ((last.cycleOf .caller).bind leavingWith?).any fun produced => check produced account shown

theorem exists_cycle {opening rest : List Action} {check : Nat → Account → List Event → Bool}
    (checked : cycleChecks opening rest check = true) :
    ∃ past first comparison account shown last produced, Run freshMonitor past first ∧
      first.cycleOf .caller = some (.comparing comparison) ∧
      CycleRun first .caller account shown last ∧
      last.cycleOf .caller = some (.leaving (.ok produced)) ∧
      check produced account shown = true := by
  obtain ⟨⟨first, past⟩, reaches, checked⟩ := (Option.any_eq_true ..).mp checked
  rw [Bool.and_eq_true] at checked
  obtain ⟨begins, checked⟩ := checked
  obtain ⟨⟨account, shown, last⟩, followed, checked⟩ := (Option.any_eq_true ..).mp checked
  obtain ⟨produced, ended, checked⟩ := (Option.any_eq_true ..).mp checked
  obtain ⟨comparison, begins⟩ := Option.isSome_iff_exists.mp begins
  obtain ⟨phase, comparing, found⟩ := Option.bind_eq_some_iff.mp begins
  obtain rfl := eq_comparing found
  obtain ⟨phase, leaving, counted⟩ := Option.bind_eq_some_iff.mp ended
  obtain rfl := eq_leaving counted
  have starts : Run freshMonitor [] freshMonitor := .rest freshMonitor
  exact ⟨past, first, comparison, account, shown, last, produced,
    starts.steps opening (fun _ _ _ => trivial) reaches, comparing,
    CycleRun.rest.follows rest followed, leaving, checked⟩

theorem faults_isolated_faulty :
    ∃ past first comparison account shown last,
      create bareView ⟨[]⟩ ⟨[]⟩ { firstScan := .reportExisting } = .ok freshMonitor ∧
      Run freshMonitor past first ∧ first.cycleOf .caller = some (.comparing comparison) ∧
      CycleRun first .caller account shown last ∧
      Finished .caller comparison account shown (.ok 1) ∧
      account.told.map Prod.snd = [.failed "rejected", .panicked, .accepted] ∧
      handedTo .caller bystander shown = [⟨"finds", [foundFile]⟩] := by
  have checked : cycleChecks comparingAll faultyCycle (fun produced account shown =>
      decide (produced = 1 ∧
        account.told.map Prod.snd = [.failed "rejected", .panicked, .accepted] ∧
        handedTo .caller bystander shown = [⟨"finds", [foundFile]⟩])) = true := by
    decide +kernel
  obtain ⟨past, first, comparison, account, shown, last, produced, reached, comparing, cycle,
    leaving, checked⟩ := exists_cycle checked
  obtain ⟨rfl, told, handed⟩ := of_decide_eq_true checked
  have isolated := faults_isolated create_freshMonitor reached comparing
  have current := (isolated.1 account shown last cycle).2.1 rfl
  have finished := (isolated.2 account shown last (.ok 1) cycle leaving current).1
  exact ⟨past, first, comparison, account, shown, last, create_freshMonitor, reached, comparing,
    cycle, finished, told, handed⟩

end FolderWatch.Monitor
