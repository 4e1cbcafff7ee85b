import FolderWatch.Proofs.Monitor.Delivering
import FolderWatch.Proofs.Monitor.Progress

/-!
One cycle while all others do what they like. An account is kept of what it works with: the
directory as it saw it, the registries as it copied them, what its check found, what its calls of
recognizers came to and how its calls of listeners ended. From its comparison on, its phase settles
what it has shown and what it has yet to do.
-/

namespace FolderWatch.Monitor

/-- A recognizer that was called, and what one of one's own returned. -/
abbrev Asked := Activity × Option (List Change)

/-- What a recognizer's call found: nothing if it panicked. -/
def foundBy (comparison : Comparison) (asked : Asked) : List Change :=
  match asked.1.kind with
  | .builtIn recognizer => recognizer.compare comparison.before comparison.after
  | .custom _ => asked.2.getD []

/-- The report that a recognizer's call leaves: none if it panicked or found nothing. -/
def reportOf? (comparison : Comparison) (asked : Asked) : Option Report :=
  match foundBy comparison asked with
  | [] => none
  | changes => some ⟨asked.1.kind.name, changes⟩

def reportsOf (comparison : Comparison) (asked : List Asked) : List Report :=
  asked.filterMap (reportOf? comparison)

/-- A caller's cycle may always publish, and a poller's in the generation that the poller is of. -/
def MayPublish (monitor : Monitor) : Actor → Prop
  | .caller => True
  | .poller index =>
      ∀ poller, monitor.pollers[index]? = some poller → poller.generation = monitor.generation

theorem isCurrent_iff {monitor : Monitor} {actor : Actor} :
    monitor.isCurrent actor = true ↔ monitor.MayPublish actor := by
  cases actor with
  | caller => simp [isCurrent, generationOf, MayPublish]
  | poller index =>
      cases here : monitor.pollers[index]? <;> simp [isCurrent, generationOf, MayPublish, here]

instance (monitor : Monitor) (actor : Actor) : Decidable (monitor.MayPublish actor) :=
  decidable_of_iff _ isCurrent_iff

structure Account where
  view : Option DirectoryView := none
  activities : List Activity := []
  subscribers : List Subscriber := []
  asked : List Asked := []
  /-- Whether it might publish when it checked that. -/
  current : Option Bool := none
  told : List (Delivery × Verdict) := []

/-- The account after the cycle of an actor was in a phase and got a signal. -/
def Account.after (account : Account) (monitor : Monitor) (actor : Actor) :
    CyclePhase → Signal → Account
  | .located _, .saw view => { account with view := some view }
  | .comparing _, .proceed => { account with activities := monitor.activities }
  | .equipped _ _, .proceed => { account with subscribers := monitor.listeners }
  | .consulting activity _, .recognized given =>
      { account with asked := account.asked ++ [(activity, given)] }
  | .adopting _ _, .proceed | .recognizing ⟨_, _, [], _⟩, .proceed =>
      { account with current := some (decide (monitor.MayPublish actor)) }
  | .delivering delivery _ _ _, .handled verdict =>
      { account with told := account.told ++ [(delivery, verdict)] }
  | _, _ => account

/-- A run in which the cycle of one actor goes on, its account kept, up to its end. -/
inductive CycleRun (first : Monitor) (actor : Actor) : Account → List Event → Monitor → Prop
  | rest : CycleRun first actor {} [] first
  | aside {account : Account} {shown more : List Event} {middle last : Monitor} {action : Action}
      (run : CycleRun first actor account shown middle)
      (others : ∀ signal, action ≠ .go actor signal)
      (taken : middle.step action = some (last, more)) :
      CycleRun first actor account (shown ++ more) last
  | goesOn {account : Account} {shown more : List Event} {middle last : Monitor}
      {phase : CyclePhase} {signal : Signal} (run : CycleRun first actor account shown middle)
      (here : middle.cycleOf actor = some phase) (unfinished : ∀ result, phase ≠ .leaving result)
      (taken : middle.step (.go actor signal) = some (last, more)) :
      CycleRun first actor (account.after middle actor phase signal) (shown ++ more) last

def Event.actor : Event → Actor
  | .entered actor | .recalled actor _ | .consulted actor _ _ | .decided actor _ _ | .dropped actor
  | .called actor _ | .published actor _ | .left actor _ | .logged actor _ => actor
  | .returned _ _ => .caller

/-- What a cycle comes to: it is dropped, or it calls listeners and publishes. -/
def Event.isOutcomeOf (actor : Actor) : Event → Bool
  | .dropped other | .called other _ | .published other _ => other = actor
  | _ => false

def outcome (actor : Actor) (shown : List Event) : List Event :=
  shown.filter (Event.isOutcomeOf actor)

/-- The marks that are one actor's own. -/
def own (actor : Actor) (shown : List Event) : List Event :=
  (marks shown).filter fun event => event.actor = actor

variable {monitor after first last : Monitor} {actor : Actor} {shown : List Event}

@[simp] theorem own_append (front tail : List Event) :
    own actor (front ++ tail) = own actor front ++ own actor tail := by
  simp [own]

theorem own_others (others : ∀ event ∈ shown, event.actor ≠ actor) : own actor shown = [] := by
  apply List.filter_eq_nil_iff.mpr
  intro event member
  simpa using others event (List.mem_filter.mp member).1

theorem own_of_all (all : ∀ event ∈ shown, event.actor = actor) :
    own actor shown = marks shown := by
  apply List.filter_eq_self.mpr
  intro event member
  simpa using all event (List.mem_filter.mp member).1

@[simp] theorem outcome_append (front tail : List Event) :
    outcome actor (front ++ tail) = outcome actor front ++ outcome actor tail :=
  List.filter_append ..

theorem outcome_own (shown : List Event) : outcome actor (own actor shown) = outcome actor shown := by
  simp only [outcome, own, marks, List.filter_filter]
  congr 1
  funext event
  cases event <;> simp +contextual [Event.isOutcomeOf, Event.actor, Event.isMark]

section Steps

theorem cycleOf_go {phase : CyclePhase} (here : monitor.cycleOf actor = some phase)
    (step : CycleStep) :
    ((monitor.publish step).setCycle actor step.phase).cycleOf actor = some step.phase := by
  rw [publish_eq]
  have before : { monitor with baseline := step.publishes.or monitor.baseline }.cycleOf actor =
      some phase := by
    cases actor <;> exact here
  rw [cycleOf_setCycle before, if_pos rfl]

theorem baseline_go (step : CycleStep) :
    ((monitor.publish step).setCycle actor step.phase).baseline =
      step.publishes.or monitor.baseline := by
  rw [publish_eq]
  cases actor <;> rfl

theorem actor_logged (lines : List LogLine) :
    ∀ event ∈ lines.map (Event.logged actor), event.actor = actor := by
  intro event member
  obtain ⟨line, -, rfl⟩ := List.mem_map.mp member
  rfl

theorem CycleMove.shownBy {phase : CyclePhase} {step : CycleStep}
    (move : CycleMove monitor actor phase step) : ∀ event ∈ step.shown, event.actor = actor := by
  cases move with
  | fails | captures | answers | handled => exact actor_logged _
  | _ => simp [Event.actor]

theorem PollerStep.shownBy {index : Nat} (step : PollerStep monitor index after shown) :
    ∀ event ∈ shown, event.actor = .poller index := by
  cases step with
  | @turns poller _ _ _ turn =>
      generalize poller.phase = before at turn
      cases turn with
      | ends result => cases result <;> simp [Event.actor]
      | _ => simp [Event.actor]
  | cycles _ move => exact move.shownBy

theorem CallerMove.shownBy (move : CallerMove monitor after shown) :
    ∀ event ∈ shown, event.actor = .caller := by
  cases move <;> simp [Event.actor]

theorem CallerStep.shownBy (step : CallerStep monitor after shown) :
    ∀ event ∈ shown, event.actor = .caller := by
  cases step with
  | acts move => exact move.shownBy
  | cycles _ move => exact move.shownBy
  | scanned => simp [Event.actor]

/-- What another does leaves a cycle where it is and shows nothing of it. -/
theorem aside_step {action : Action} {phase : CyclePhase}
    (here : monitor.cycleOf actor = some phase) (others : ∀ signal, action ≠ .go actor signal)
    (taken : monitor.step action = some (after, shown)) :
    after.cycleOf actor = some phase ∧ ∀ event ∈ shown, event.actor ≠ actor := by
  cases action with
  | call operation =>
      obtain ⟨different, kept⟩ := cycleOf_call here taken
      refine ⟨kept, fun event member own => different ?_⟩
      rw [← own]
      exact (call_move taken).shownBy event member
  | go other signal =>
      have elsewhere : actor ≠ other := by
        rintro rfl
        exact others signal rfl
      refine ⟨(cycleOf_elsewhere elsewhere taken).trans here, fun event member own => ?_⟩
      apply elsewhere
      rw [← own]
      cases other with
      | caller => exact (stepControl_callerStep taken).shownBy event member
      | poller index => exact (pollerStep_of_step taken).shownBy event member
  | addActivity | addBuiltIns | removeActivity | addListener | removeListener | setDelay =>
      cases taken
      exact ⟨by cases actor <;> exact here, by simp⟩

/-- Nobody else's cycle publishes meanwhile, so only a change of the directory takes the baseline
away. -/
theorem baseline_aside {action : Action} (exclusive : monitor.Exclusive)
    (inside : monitor.Inside actor) (others : ∀ signal, action ≠ .go actor signal)
    (taken : monitor.step action = some (after, shown))
    (steady : ∀ target, .returned (.setDirectory target) (.ok 0) ∉ shown) :
    after.baseline = monitor.baseline := by
  have acted {result : Monitor} {events : List Event} (move : CallerMove monitor result events)
      (steady : ∀ target, .returned (.setDirectory target) (.ok 0) ∉ events) :
      result.baseline = monitor.baseline := by
    cases move with
    | @rebased target => exact absurd List.mem_cons_self (steady target)
    | _ => rfl
  have nobody {other : Actor} {phase : CyclePhase} {step : CycleStep} (different : other ≠ actor)
      (here : monitor.cycleOf other = some phase) (move : CycleMove monitor other phase step) :
      False := by
    rcases move.inside.1 with otherInside | idle
    · exact different (exclusive other actor ⟨phase, here, otherInside⟩ inside)
    · simp [isCycling_iff.mpr ⟨actor, inside⟩] at idle
  cases action with
  | call operation => exact acted (call_move taken) steady
  | go other signal =>
      have different : other ≠ actor := by
        rintro rfl
        exact others signal rfl
      cases other with
      | caller =>
          cases stepControl_callerStep taken with
          | acts move => exact acted move steady
          | @cycles phase step control move =>
              have here : monitor.cycleOf .caller = some phase := by
                simp only [cycleOf, control, Control.cycle?]
              exact (nobody different here move).elim
          | scanned => rfl
      | poller index =>
          cases pollerStep_of_step taken with
          | turns => rfl
          | cycles here move => exact (nobody different here move).elim
  | addActivity | addBuiltIns | removeActivity | addListener | removeListener | setDelay =>
      cases taken
      rfl

end Steps

def consultations (actor : Actor) (comparison : Comparison) (asked : List Asked) : List Event :=
  (asked.map Prod.fst).map fun activity => .consulted actor activity comparison

/-- What a cycle shows up to its check, which it passes. -/
def decision (actor : Actor) (comparison : Comparison) (asked : List Asked) : List Event :=
  consultations actor comparison asked ++
    [.decided actor comparison (reportsOf comparison asked)]

def calls (actor : Actor) (told : List (Delivery × Verdict)) : List Event :=
  (told.map Prod.fst).map (.called actor)

/-- How many changes the recognizers found. -/
def produced (comparison : Comparison) (asked : List Asked) : Nat :=
  ((reportsOf comparison asked).flatMap Report.changes).length

/-- What a cycle with this account has shown since its comparison, in a phase. Until its check it has
come to nothing; from then on its calls, those made and those left, are all the deliveries there
are. -/
inductive Reached (actor : Actor) (comparison : Comparison) (view : Option DirectoryView) :
    Account → List Event → CyclePhase → Prop
  | comparing : Reached actor comparison view { view } [] (.comparing comparison)
  | equipped (activities : List Activity) :
      Reached actor comparison view { view, activities } [] (.equipped comparison activities)
  | recognizing (subscribers : List Subscriber) (asked : List Asked) (left : List Activity) :
      Reached actor comparison view
        { view, activities := asked.map Prod.fst ++ left, subscribers, asked }
        (consultations actor comparison asked)
        (.recognizing ⟨comparison, subscribers, left, reportsOf comparison asked⟩)
  | consulting (subscribers : List Subscriber) (asked : List Asked) (activity : Activity)
      (left : List Activity) :
      Reached actor comparison view
        { view, activities := asked.map Prod.fst ++ activity :: left, subscribers, asked }
        (consultations actor comparison asked ++ [.consulted actor activity comparison])
        (.consulting activity ⟨comparison, subscribers, left, reportsOf comparison asked⟩)
  | dropped (subscribers : List Subscriber) (asked : List Asked) :
      Reached actor comparison view
        { view, activities := asked.map Prod.fst, subscribers, asked, current := some false }
        (consultations actor comparison asked ++ [.dropped actor]) (.leaving (.ok 0))
  | dispatching {subscribers : List Subscriber} {asked : List Asked}
      {told : List (Delivery × Verdict)} {left : List Delivery}
      (all : told.map Prod.fst ++ left = deliveries (reportsOf comparison asked) subscribers) :
      Reached actor comparison view
        { view, activities := asked.map Prod.fst, subscribers, asked, current := some true, told }
        (decision actor comparison asked ++ calls actor told)
        (.dispatching comparison left (produced comparison asked))
  | delivering {subscribers : List Subscriber} {asked : List Asked}
      {told : List (Delivery × Verdict)} {delivery : Delivery} {left : List Delivery}
      (all : told.map Prod.fst ++ delivery :: left =
        deliveries (reportsOf comparison asked) subscribers) :
      Reached actor comparison view
        { view, activities := asked.map Prod.fst, subscribers, asked, current := some true, told }
        (decision actor comparison asked ++ (calls actor told ++ [.called actor delivery]))
        (.delivering delivery comparison left (produced comparison asked))
  | storing {subscribers : List Subscriber} {asked : List Asked}
      {told : List (Delivery × Verdict)}
      (all : told.map Prod.fst = deliveries (reportsOf comparison asked) subscribers) :
      Reached actor comparison view
        { view, activities := asked.map Prod.fst, subscribers, asked, current := some true, told }
        (decision actor comparison asked ++ calls actor told)
        (.storing comparison.after (produced comparison asked))
  | published {subscribers : List Subscriber} {asked : List Asked}
      {told : List (Delivery × Verdict)}
      (all : told.map Prod.fst = deliveries (reportsOf comparison asked) subscribers) :
      Reached actor comparison view
        { view, activities := asked.map Prod.fst, subscribers, asked, current := some true, told }
        (decision actor comparison asked ++
          (calls actor told ++ [.published actor comparison.after]))
        (.leaving (.ok (produced comparison asked)))

theorem note_reportsOf (comparison : Comparison) (subscribers : List Subscriber)
    (left : List Activity) (asked : List Asked) (activity : Activity)
    (given : Option (List Change)) :
    (⟨comparison, subscribers, left, reportsOf comparison asked⟩ : Survey).note activity
        (activity.answer comparison given) =
      ⟨comparison, subscribers, left, reportsOf comparison (asked ++ [(activity, given)])⟩ := by
  simp only [reportsOf, List.filterMap_append, List.filterMap_cons, List.filterMap_nil]
  cases kind : activity.kind with
  | builtIn recognizer =>
      rcases found : recognizer.compare comparison.before comparison.after with _ | ⟨_, _⟩ <;>
        simp [Survey.note, Activity.answer, reportOf?, foundBy, kind, found]
  | custom name =>
      rcases given with _ | _ | ⟨_, _⟩ <;>
        simp [Survey.note, Activity.answer, reportOf?, foundBy, kind]

theorem Reached.step {comparison : Comparison} {view : Option DirectoryView} {account : Account}
    {past : List Event} {phase : CyclePhase} {signal : Signal} {step : CycleStep}
    (reached : Reached actor comparison view account past phase)
    (goes : monitor.stepCycle actor phase signal = some step) :
    Reached actor comparison view (account.after monitor actor phase signal)
      (past ++ marks step.shown) step.phase := by
  cases reached with
  | comparing =>
      cases signal <;> cases goes
      exact .equipped monitor.activities
  | equipped activities =>
      cases signal <;> cases goes
      exact .recognizing monitor.listeners [] activities
  | recognizing subscribers asked left =>
      cases signal with
      | proceed =>
          cases left with
          | cons activity left =>
              cases goes
              exact .consulting subscribers asked activity left
          | nil =>
              simp only [stepCycle, isCurrent_iff] at goes
              rw [List.append_nil]
              split at goes <;> cases goes
              · rename_i current
                have all : ([] : List (Delivery × Verdict)).map Prod.fst ++
                    deliveries (reportsOf comparison asked) subscribers =
                  deliveries (reportsOf comparison asked) subscribers := rfl
                have reached : Reached actor comparison view _ _ _ := .dispatching all
                simpa [Account.after, current, decision, calls, Survey.produced, produced, marks,
                  List.filter_cons, Event.isMark] using reached
              · rename_i outdated
                have reached : Reached actor comparison view _ _ _ := .dropped subscribers asked
                simpa [Account.after, outdated, marks, List.filter_cons, Event.isMark] using reached
      | _ => cases goes
  | consulting subscribers asked activity left =>
      cases signal with
      | recognized given =>
          cases goes
          have reached : Reached actor comparison view _ _ _ :=
            .recognizing subscribers (asked ++ [(activity, given)]) left
          rw [← note_reportsOf comparison subscribers left asked activity given] at reached
          simpa [Account.after, consultations] using reached
      | _ => cases goes
  | @dispatching subscribers asked told left all =>
      cases signal with
      | proceed =>
          cases left with
          | nil =>
              cases goes
              rw [List.append_nil] at all
              simpa [marks, Account.after] using Reached.storing all
          | cons delivery left =>
              cases goes
              simpa [marks, List.filter_cons, Event.isMark, Account.after] using
                Reached.delivering all
      | _ => cases left <;> cases goes
  | @delivering subscribers asked told delivery left all =>
      cases signal with
      | handled verdict =>
          cases goes
          have handed : (told ++ [(delivery, verdict)]).map Prod.fst ++ left =
              deliveries (reportsOf comparison asked) subscribers := by
            simpa using all
          simpa [Account.after, calls] using Reached.dispatching handed
      | _ => cases goes
  | storing all =>
      cases signal <;> cases goes
      simpa [marks, List.filter_cons, Event.isMark, Account.after] using Reached.published all
  | published => cases signal <;> cases goes
  | dropped => cases signal <;> cases goes

variable {comparison : Comparison} {account : Account}

theorem CycleRun.reached (run : CycleRun first actor account shown last)
    (begins : first.cycleOf actor = some (.comparing comparison)) :
    ∃ phase, last.cycleOf actor = some phase ∧
      Reached actor comparison none account (own actor shown) phase := by
  induction run with
  | rest => exact ⟨_, begins, .comparing⟩
  | aside run others taken ih =>
      obtain ⟨phase, here, reached⟩ := ih
      obtain ⟨there, elsewhere⟩ := aside_step here others taken
      refine ⟨phase, there, ?_⟩
      rwa [own_append, own_others elsewhere, List.append_nil]
  | @goesOn account shown more middle last phase signal run here unfinished taken ih =>
      obtain ⟨reachedPhase, there, reached⟩ := ih
      cases here.symm.trans there
      obtain ⟨step, goes, rfl, rfl⟩ := exists_stepCycle here unfinished taken
      refine ⟨step.phase, cycleOf_go here step, ?_⟩
      rw [own_append, own_of_all (stepCycle_move goes).shownBy]
      exact reached.step goes

theorem CycleRun.run (run : CycleRun first actor account shown last) : Run first shown last := by
  induction run with
  | rest => exact .rest first
  | aside _ _ taken ih | goesOn _ _ _ taken ih => exact ih.step _ trivial taken

section Reached

variable {view : Option DirectoryView} {past : List Event} {phase : CyclePhase}

theorem Reached.isInside (reached : Reached actor comparison view account past phase) :
    phase.isInside = true := by
  cases reached <;> rfl

theorem Reached.leaving {snapshot : Snapshot}
    (reached : Reached actor comparison view account past phase)
    (published : .published actor snapshot ∈ past) : ∃ result, phase = .leaving result := by
  cases reached with
  | published | dropped => exact ⟨_, rfl⟩
  | _ => simp [decision, consultations, calls] at published

/-- A cycle is dropped if its check found that it may not publish, and only then. -/
theorem Reached.dropped_iff (reached : Reached actor comparison view account past phase) :
    .dropped actor ∈ past ↔ account.current = some false := by
  cases reached <;> simp [decision, consultations, calls]

end Reached

theorem CycleRun.dropped_iff (run : CycleRun first actor account shown last)
    (begins : first.cycleOf actor = some (.comparing comparison)) :
    .dropped actor ∈ shown ↔ account.current = some false := by
  obtain ⟨phase, -, reached⟩ := run.reached begins
  rw [← reached.dropped_iff]
  simp [own, marks, Event.isMark, Event.actor]

/-- Once a cycle has published, its capture stays the baseline until the cycle ends, but for a
change of the directory. -/
theorem CycleRun.baseline (run : CycleRun first actor account shown last)
    (begins : first.cycleOf actor = some (.comparing comparison)) (exclusive : first.Exclusive)
    (steady : ∀ target, .returned (.setDirectory target) (.ok 0) ∉ shown)
    (published : .published actor comparison.after ∈ shown) :
    last.baseline = some comparison.after := by
  induction run with
  | rest => simp at published
  | @aside account shown more middle last action run others taken ih =>
      obtain ⟨phase, here, reached⟩ := run.reached begins
      have exclusiveNow : middle.Exclusive :=
        run.run.invariant exclusive fun _ exclusive taken =>
          exclusive.passage (step_move taken).passage
      rcases List.mem_append.mp published with earlier | now
      · have earlierSteady (target : Path) : .returned (.setDirectory target) (.ok 0) ∉ shown :=
          fun member => steady target (List.mem_append_left _ member)
        have before := ih earlierSteady earlier
        rw [baseline_aside exclusiveNow ⟨phase, here, reached.isInside⟩ others taken
          fun target member => steady target (List.mem_append_right _ member), before]
      · exact absurd rfl ((aside_step here others taken).2 _ now)
  | @goesOn account shown more middle last phase signal run here unfinished taken ih =>
      obtain ⟨reachedPhase, there, reached⟩ := run.reached begins
      cases here.symm.trans there
      obtain ⟨step, goes, rfl, rfl⟩ := exists_stepCycle here unfinished taken
      rcases List.mem_append.mp published with earlier | now
      · have shownAlready : .published actor comparison.after ∈ own actor shown := by
          simpa [own, marks, Event.isMark, Event.actor] using earlier
        obtain ⟨result, leaving⟩ := reached.leaving shownAlready
        exact absurd leaving (unfinished result)
      · rw [baseline_go]
        cases stepCycle_move goes with
        | publishes =>
            simp only [List.mem_singleton, Event.published.injEq, true_and] at now
            rw [now]
            rfl
        | _ => simp at now

end FolderWatch.Monitor
