import FolderWatch.Proofs.Monitor.Belonging
import FolderWatch.Proofs.Recognizer.Retelling

/-!
A monitor that is only ever asked for single scans tells a subscriber, scan by scan, how each
capture differs from the one before it, so that the subscriber can keep up with the baseline.
-/

namespace FolderWatch.Monitor

open Trace

structure AtRest (monitor : Monitor) : Prop where
  free : monitor.control = .free
  stopped : monitor.lifecycle = .initial
  gone : ∀ poller ∈ monitor.pollers, poller.phase = .exited
  nothing : monitor.baseline = none

theorem atRest_create {view : DirectoryView} {workingDirectory path : Path}
    {settings : PollSettings} {fresh : Monitor}
    (created : create view workingDirectory path settings = .ok fresh) : fresh.AtRest := by
  rw [create_eq created]
  exact ⟨rfl, rfl, by simp, rfl⟩

/-- There is no start and no other directory, and whenever a scan goes on, the built-in recognizers
and the subscriber are registered. -/
def watched (subscriber : Subscriber) (monitor : Monitor) : Action → Bool
  | .call .start | .call (.setDirectory _) => false
  | .go .caller _ =>
      (Recognizer.all.all fun recognizer =>
        monitor.activities.any fun activity => activity.kind = .builtIn recognizer) &&
      monitor.listeners.contains subscriber
  | _ => true

def Action.capture? (directory : Path) : Action → Option Snapshot
  | .go .caller (.saw view) => (Snapshot.capture view directory).toOption
  | _ => none

/-- What scans captured; a capture that failed leaves nothing. -/
def captures (directory : Path) (actions : List Action) : List Snapshot :=
  actions.filterMap (Action.capture? directory)

/-- The snapshots that a subscriber is to be led through. -/
def passed (mode : FirstScan) (directory : Path) (captures : List Snapshot) : List Snapshot :=
  match mode with
  | .baseline => captures
  | .reportExisting => .empty directory :: captures

def hear (subscriber : Subscriber) (heard : List Hearing) : Event → List Hearing
  | .decided _ comparison _ => ⟨comparison, []⟩ :: heard
  | .called _ delivery =>
      match heard with
      | latest :: earlier =>
          if delivery.subscriber = subscriber then
            { latest with reports := latest.reports ++ [delivery.report] } :: earlier
          else heard
      | [] => []
  | _ => heard

/-- What a trace tells a subscriber, the latest cycle first. -/
def heard (subscriber : Subscriber) (shown : List Event) : List Hearing :=
  shown.foldl (hear subscriber) []

def hearings (subscriber : Subscriber) (shown : List Event) : List Hearing :=
  (heard subscriber shown).reverse

/-- A report is of a built-in recognizer, or of one of that name that was asked. -/
def Explained (shown : List Event) (comparison : Comparison) (report : Report) : Prop :=
  (∃ recognizer, report = comparison.finding recognizer) ∨
    ∃ identity, .consulted .caller ⟨identity, .custom report.source⟩ comparison ∈ shown

structure Sound (shown : List Event) (comparison : Comparison) (report : Report) : Prop where
  filled : report.changes ≠ []
  explained : Explained shown comparison report

variable {mode : FirstScan} {directory : Path} {subscriber : Subscriber}
  {seen earlier : List Snapshot} {story : List Hearing} {shown more : List Event}

theorem Sound.mono {comparison : Comparison} {report : Report}
    (sound : Sound shown comparison report) : Sound (shown ++ more) comparison report := by
  refine ⟨sound.filled, ?_⟩
  rcases sound.explained with builtIn | ⟨identity, asked⟩
  · exact .inl builtIn
  · exact .inr ⟨identity, List.mem_append_left more asked⟩

/-- A subscriber has been told of all captures, the latest hearing first. -/
structure Settled (mode : FirstScan) (directory : Path) (seen : List Snapshot)
    (story : List Hearing) (shown : List Event) : Prop where
  chain : story.reverse.map Hearing.comparison = comparisons directory (passed mode directory seen)
  told : ∀ hearing ∈ story, ∀ recognizer,
    (hearing.comparison.finding recognizer).changes ≠ [] →
      hearing.comparison.finding recognizer ∈ hearing.reports
  sound : ∀ hearing ∈ story, ∀ report ∈ hearing.reports, Sound shown hearing.comparison report

theorem Settled.mono (settled : Settled mode directory seen story shown) :
    Settled mode directory seen story (shown ++ more) := by
  refine ⟨settled.chain, settled.told, ?_⟩
  intro hearing member report listed
  exact (settled.sound hearing member report listed).mono

/-- A capture is being compared with the one before it. -/
structure Follows (mode : FirstScan) (directory : Path) (seen : List Snapshot)
    (story : List Hearing) (shown : List Event) (comparison : Comparison) : Prop where
  settled : ∃ earlier, seen = earlier ++ [comparison.after] ∧
    Settled mode directory earlier story shown ∧
    (passed mode directory earlier).getLast? = some comparison.before
  place : comparison.directory = directory

theorem Follows.mono {comparison : Comparison}
    (follows : Follows mode directory seen story shown comparison) :
    Follows mode directory seen story (shown ++ more) comparison := by
  obtain ⟨⟨earlier, split, settled, before⟩, place⟩ := follows
  exact ⟨⟨earlier, split, settled.mono, before⟩, place⟩

theorem passed_append (after : Snapshot) :
    passed mode directory (earlier ++ [after]) = passed mode directory earlier ++ [after] := by
  cases mode <;> rfl

/-- Once all that was found is told, the comparison is settled too. -/
theorem Follows.settles {comparison : Comparison} {reports : List Report}
    (follows : Follows mode directory seen story shown comparison)
    (told : ∀ recognizer, (comparison.finding recognizer).changes ≠ [] →
      comparison.finding recognizer ∈ reports)
    (sound : ∀ report ∈ reports, Sound shown comparison report) :
    Settled mode directory seen (⟨comparison, reports⟩ :: story) shown := by
  obtain ⟨⟨earlier, rfl, settled, before⟩, rfl⟩ := follows
  constructor
  · rw [passed_append, comparisons_append before, ← settled.chain]
    simp
  · intro hearing member
    rcases List.mem_cons.mp member with rfl | among
    · exact told
    · exact settled.told hearing among
  · intro hearing member
    rcases List.mem_cons.mp member with rfl | among
    · exact sound
    · exact settled.sound hearing among

/-- A recognizer's report is noted already, or one is still to be asked for it. -/
def Covered (comparison : Comparison) (left : List Activity) (reports : List Report) : Prop :=
  ∀ recognizer, (comparison.finding recognizer).changes ≠ [] →
    comparison.finding recognizer ∈ reports ∨ ∃ activity ∈ left, activity.kind = .builtIn recognizer

/-- Some of the cycle's reports are told, and the rest is left to tell. -/
structure Tells (mode : FirstScan) (directory : Path) (subscriber : Subscriber)
    (seen : List Snapshot) (shown : List Event) (comparison : Comparison) (left : List Delivery)
    (reports : List Report) (story : List Hearing) : Prop where
  latest : heard subscriber shown = ⟨comparison, reports⟩ :: story
  follows : Follows mode directory seen story shown comparison
  told : ∀ recognizer, (comparison.finding recognizer).changes ≠ [] →
    comparison.finding recognizer ∈ reports ∨ ⟨subscriber, comparison.finding recognizer⟩ ∈ left
  sound : ∀ report ∈ reports, Sound shown comparison report
  soundLeft : ∀ delivery ∈ left, Sound shown comparison delivery.report

/-- How far a scan has come with telling the subscriber. -/
def Scans (mode : FirstScan) (directory : Path) (subscriber : Subscriber) (seen : List Snapshot)
    (shown : List Event) (baseline : Option Snapshot) : CyclePhase → Prop
  | .waiting | .entered | .leaving _ =>
      Settled mode directory seen (heard subscriber shown) shown ∧ baseline = seen.getLast?
  | .located place =>
      place = directory ∧ Settled mode directory seen (heard subscriber shown) shown ∧
        baseline = seen.getLast?
  | .captured place after =>
      place = directory ∧ ∃ earlier, seen = earlier ++ [after] ∧
        Settled mode directory earlier (heard subscriber shown) shown ∧
        baseline = earlier.getLast?
  | .adopting _ after =>
      mode = .baseline ∧ seen = [after] ∧ Settled mode directory [] (heard subscriber shown) shown
  | .comparing comparison =>
      Follows mode directory seen (heard subscriber shown) shown comparison
  | .equipped comparison activities =>
      Follows mode directory seen (heard subscriber shown) shown comparison ∧
        Covered comparison activities []
  | .recognizing survey =>
      Follows mode directory seen (heard subscriber shown) shown survey.comparison ∧
        subscriber ∈ survey.subscribers ∧
        Covered survey.comparison survey.left survey.reports ∧
        ∀ report ∈ survey.reports, Sound shown survey.comparison report
  | .consulting activity survey =>
      Follows mode directory seen (heard subscriber shown) shown survey.comparison ∧
        subscriber ∈ survey.subscribers ∧
        Covered survey.comparison (activity :: survey.left) survey.reports ∧
        (∀ report ∈ survey.reports, Sound shown survey.comparison report) ∧
        .consulted .caller activity survey.comparison ∈ shown
  | .dispatching comparison left _ | .delivering _ comparison left _ =>
      ∃ reports story, Tells mode directory subscriber seen shown comparison left reports story
  | .storing after _ =>
      Settled mode directory seen (heard subscriber shown) shown ∧ seen.getLast? = some after

theorem heard_append (shown more : List Event) :
    heard subscriber (shown ++ more) = more.foldl (hear subscriber) (heard subscriber shown) :=
  List.foldl_append

theorem hear_logged (lines : List LogLine) (story : List Hearing) :
    (lines.map (.logged .caller)).foldl (hear subscriber) story = story := by
  apply foldl_ignored
  intro event member
  obtain ⟨line, -, rfl⟩ := List.mem_map.mp member
  rfl

/-- What a subscriber does not hear of leaves settled what was. -/
theorem Settled.quiet (settled : Settled mode directory seen (heard subscriber shown) shown)
    (unheard : more.foldl (hear subscriber) (heard subscriber shown) = heard subscriber shown) :
    Settled mode directory seen (heard subscriber (shown ++ more)) (shown ++ more) := by
  rw [heard_append, unheard]
  exact settled.mono

theorem Follows.quiet {comparison : Comparison}
    (follows : Follows mode directory seen (heard subscriber shown) shown comparison)
    (unheard : more.foldl (hear subscriber) (heard subscriber shown) = heard subscriber shown) :
    Follows mode directory seen (heard subscriber (shown ++ more)) (shown ++ more) comparison := by
  rw [heard_append, unheard]
  exact follows.mono

theorem getLast?_passed {before : Snapshot} (latest : earlier.getLast? = some before) :
    (passed mode directory earlier).getLast? = some before := by
  cases mode with
  | baseline => exact latest
  | reportExisting =>
      cases earlier with
      | nil => simp at latest
      | cons first rest => exact (List.getLast?_cons_cons ..).trans latest

theorem Settled.adopts {after : Snapshot} (settled : Settled .baseline directory [] story shown) :
    Settled .baseline directory [after] story shown :=
  ⟨settled.chain, settled.told, settled.sound⟩

theorem mem_deliveries {reports : List Report} {subscribers : List Subscriber} {report : Report}
    (listed : report ∈ reports) (listens : subscriber ∈ subscribers) :
    ⟨subscriber, report⟩ ∈ deliveries reports subscribers :=
  List.mem_flatMap.mpr ⟨report, listed, List.mem_map.mpr ⟨subscriber, listens, rfl⟩⟩

theorem report_of_mem_deliveries {reports : List Report} {subscribers : List Subscriber}
    {delivery : Delivery} (member : delivery ∈ deliveries reports subscribers) :
    delivery.report ∈ reports := by
  obtain ⟨report, listed, made⟩ := List.mem_flatMap.mp member
  obtain ⟨_, -, rfl⟩ := List.mem_map.mp made
  exact listed

/-- What asking a recognizer adds to the reports: its report, if it has anything to report. -/
theorem mem_reports_note {survey : Survey} {activity : Activity} {answer : Option (List Change)}
    {report : Report} :
    report ∈ (survey.note activity answer).reports ↔ report ∈ survey.reports ∨
      ∃ changes, answer = some changes ∧ changes ≠ [] ∧ report = ⟨activity.kind.name, changes⟩ := by
  rcases answer with _ | _ | ⟨first, others⟩ <;> simp [Survey.note]

theorem Covered.note {survey : Survey} {activity : Activity}
    (covered : Covered survey.comparison (activity :: survey.left) survey.reports)
    (given : Option (List Change)) :
    Covered survey.comparison survey.left
      (survey.note activity (activity.answer survey.comparison given)).reports := by
  intro recognizer found
  rcases covered recognizer found with listed | ⟨other, left, builtIn⟩
  · exact .inl (mem_reports_note.mpr (.inl listed))
  · rcases List.mem_cons.mp left with rfl | left
    · refine .inl (mem_reports_note.mpr (.inr ⟨_, ?_, found, ?_⟩))
      · simp [Activity.answer, builtIn, Comparison.finding]
      · simp [builtIn, ActivityKind.name, Comparison.finding]
    · exact .inr ⟨other, left, builtIn⟩

theorem Sound.note {survey : Survey} {activity : Activity}
    (sound : ∀ report ∈ survey.reports, Sound shown survey.comparison report)
    (asked : .consulted .caller activity survey.comparison ∈ shown)
    (given : Option (List Change)) :
    ∀ report ∈ (survey.note activity (activity.answer survey.comparison given)).reports,
      Sound shown survey.comparison report := by
  intro report listed
  rcases mem_reports_note.mp listed with old | ⟨changes, answered, filled, rfl⟩
  · exact sound report old
  · refine ⟨filled, ?_⟩
    obtain ⟨identity, kind⟩ := activity
    cases kind with
    | builtIn recognizer =>
        simp only [Activity.answer, Option.some.injEq] at answered
        exact .inl ⟨recognizer, by rw [← answered]; rfl⟩
    | custom name => exact .inr ⟨identity, asked⟩

theorem Tells.calls {comparison : Comparison} {delivery : Delivery} {left : List Delivery}
    {reports : List Report}
    (tells : Tells mode directory subscriber seen shown comparison (delivery :: left) reports story) :
    ∃ reports, Tells mode directory subscriber seen (shown ++ [.called .caller delivery]) comparison
      left reports story := by
  have latest := tells.latest
  by_cases mine : delivery.subscriber = subscriber
  · refine ⟨reports ++ [delivery.report], ?_, tells.follows.mono, ?_, ?_, ?_⟩
    · rw [heard_append, latest]
      simp [hear, mine]
    · intro recognizer found
      rcases tells.told recognizer found with told | waits
      · exact .inl (List.mem_append_left _ told)
      · rcases List.mem_cons.mp waits with rfl | waits
        · exact .inl (by simp)
        · exact .inr waits
    · intro report listed
      rcases List.mem_append.mp listed with old | new
      · exact (tells.sound report old).mono
      · rw [List.mem_singleton.mp new]
        exact (tells.soundLeft delivery (by simp)).mono
    · intro other waits
      exact (tells.soundLeft other (by simp [waits])).mono
  · refine ⟨reports, ?_, tells.follows.mono, ?_, ?_, ?_⟩
    · rw [heard_append, latest]
      simp [hear, mine]
    · intro recognizer found
      rcases tells.told recognizer found with told | waits
      · exact .inl told
      · rcases List.mem_cons.mp waits with rfl | waits
        · exact absurd rfl mine
        · exact .inr waits
    · intro report listed
      exact (tells.sound report listed).mono
    · intro other waits
      exact (tells.soundLeft other (by simp [waits])).mono

theorem Tells.logged {comparison : Comparison} {left : List Delivery} {reports : List Report}
    (tells : Tells mode directory subscriber seen shown comparison left reports story)
    (lines : List LogLine) :
    Tells mode directory subscriber seen (shown ++ lines.map (.logged .caller)) comparison left
      reports story := by
  refine ⟨?_, tells.follows.mono, tells.told, ?_, ?_⟩
  · rw [heard_append, hear_logged]
    exact tells.latest
  · intro report listed
    exact (tells.sound report listed).mono
  · intro delivery waits
    exact (tells.soundLeft delivery waits).mono

theorem Tells.settles {comparison : Comparison} {reports : List Report}
    (tells : Tells mode directory subscriber seen shown comparison [] reports story) :
    Settled mode directory seen (heard subscriber shown) shown := by
  rw [tells.latest]
  refine tells.follows.settles ?_ tells.sound
  intro recognizer found
  rcases tells.told recognizer found with told | waits
  · exact told
  · simp at waits

theorem Follows.captured {comparison : Comparison}
    (follows : Follows mode directory seen story shown comparison) :
    seen.getLast? = some comparison.after := by
  obtain ⟨⟨earlier, rfl, -⟩, -⟩ := follows
  simp

theorem Scans.move {monitor : Monitor} {phase : CyclePhase} {step : CycleStep}
    (scans : Scans mode directory subscriber seen shown monitor.baseline phase)
    (place : monitor.directory = directory) (sameMode : monitor.firstScan = mode)
    (equipped : ∀ recognizer, ∃ activity ∈ monitor.activities, activity.kind = .builtIn recognizer)
    (listens : subscriber ∈ monitor.listeners) (move : CycleMove monitor .caller phase step)
    (elsewhere : ∀ place, phase ≠ .located place) :
    Scans mode directory subscriber seen (shown ++ step.shown)
      (step.publishes.or monitor.baseline) step.phase := by
  cases move with
  | enters =>
      obtain ⟨settled, baseline⟩ := scans
      exact ⟨settled.quiet rfl, baseline⟩
  | locates =>
      obtain ⟨settled, baseline⟩ := scans
      exact ⟨place, settled.quiet rfl, baseline⟩
  | fails | captures => exact absurd rfl (elsewhere _)
  | recalls found =>
      obtain ⟨rfl, earlier, split, settled, baseline⟩ := scans
      have before := baseline.symm.trans found
      exact ⟨⟨earlier, split, settled.quiet rfl, getLast?_passed before⟩, rfl⟩
  | adopts found adopting =>
      obtain ⟨rfl, earlier, rfl, settled, baseline⟩ := scans
      have none : earlier = [] := List.getLast?_eq_none_iff.mp (baseline.symm.trans found)
      subst none
      exact ⟨sameMode.symm.trans adopting, rfl, settled.quiet rfl⟩
  | startsEmpty found reporting =>
      obtain ⟨rfl, earlier, rfl, settled, baseline⟩ := scans
      have none : earlier = [] := List.getLast?_eq_none_iff.mp (baseline.symm.trans found)
      subst none
      refine ⟨⟨[], rfl, settled.quiet rfl, ?_⟩, rfl⟩
      rw [← sameMode, reporting]
      rfl
  | accepted =>
      obtain ⟨rfl, rfl, settled⟩ := scans
      exact ⟨(settled.quiet rfl).adopts, rfl⟩
  | refused stale | drops stale => simp [isCurrent, generationOf] at stale
  | equips =>
      exact ⟨Follows.quiet scans rfl, fun recognizer _ => .inr (equipped recognizer)⟩
  | surveys =>
      obtain ⟨follows, covered⟩ := scans
      exact ⟨follows.quiet rfl, listens, covered, by simp⟩
  | consults =>
      obtain ⟨follows, listens, covered, sound⟩ := scans
      exact ⟨follows.quiet rfl, listens, covered, fun report listed => (sound report listed).mono,
        by simp⟩
  | @answers activity survey given =>
      obtain ⟨follows, listens, covered, sound, asked⟩ := scans
      obtain ⟨found, noted⟩ :=
        exists_note survey activity (activity.answer survey.comparison given)
      have further := covered.note given
      have known := Sound.note sound asked given
      rw [noted] at further known ⊢
      exact ⟨follows.quiet (hear_logged _ _), listens, further,
        fun report listed => (known report listed).mono⟩
  | @decides comparison subscribers reports =>
      obtain ⟨follows, listens, covered, sound⟩ := scans
      refine ⟨[], heard subscriber shown, ?_, follows.mono, ?_, by simp, ?_⟩
      · rw [heard_append]
        rfl
      · intro recognizer found
        rcases covered recognizer found with listed | ⟨_, none, -⟩
        · exact .inr (mem_deliveries listed listens)
        · simp at none
      · intro delivery waits
        exact (sound _ (report_of_mem_deliveries waits)).mono
  | calls =>
      obtain ⟨reports, story, tells⟩ := scans
      obtain ⟨reports, told⟩ := tells.calls
      exact ⟨reports, story, told⟩
  | handled =>
      obtain ⟨reports, story, tells⟩ := scans
      exact ⟨reports, story, tells.logged _⟩
  | stores =>
      obtain ⟨reports, story, tells⟩ := scans
      rw [List.append_nil]
      exact ⟨tells.settles, tells.follows.captured⟩
  | publishes =>
      obtain ⟨settled, latest⟩ := scans
      exact ⟨settled.quiet rfl, latest.symm⟩

theorem capture?_of_elsewhere {monitor : Monitor} {phase : CyclePhase} {signal : Signal}
    {step : CycleStep} (taken : monitor.stepCycle .caller phase signal = some step)
    (elsewhere : ∀ place, phase ≠ .located place) :
    Action.capture? directory (.go .caller signal) = none := by
  cases signal with
  | saw view =>
      cases phase with
      | located place => exact absurd rfl (elsewhere place)
      | _ => simp [stepCycle] at taken
  | _ => rfl

theorem Scans.looks {monitor : Monitor} {place : Path} {signal : Signal} {step : CycleStep}
    (scans : Scans mode directory subscriber seen shown monitor.baseline (.located place))
    (taken : monitor.stepCycle .caller (.located place) signal = some step) :
    Scans mode directory subscriber
      (seen ++ (Action.capture? directory (.go .caller signal)).toList) (shown ++ step.shown)
      (step.publishes.or monitor.baseline) step.phase := by
  obtain ⟨rfl, settled, baseline⟩ := scans
  cases signal with
  | saw view =>
      simp only [stepCycle] at taken
      split at taken <;> cases taken
      · rename_i failed
        have nothing : Action.capture? place (.go .caller (.saw view)) = none := by
          simp [Action.capture?, failed, Except.toOption]
        rw [nothing, Option.toList_none, List.append_nil]
        exact ⟨settled.quiet (hear_logged _ _), baseline⟩
      · rename_i after captured
        have new : Action.capture? place (.go .caller (.saw view)) = some after := by
          simp [Action.capture?, captured, Except.toOption]
        rw [new, Option.toList_some]
        exact ⟨rfl, seen, rfl, settled.quiet (hear_logged _ _), baseline⟩
  | _ => simp [stepCycle] at taken

/-- The monitor between its caller's steps. -/
structure Watches (mode : FirstScan) (directory : Path) (subscriber : Subscriber)
    (actions : List Action) (shown : List Event) (monitor : Monitor) : Prop where
  place : monitor.directory = directory
  sameMode : monitor.firstScan = mode
  stopped : monitor.lifecycle = .initial
  gone : ∀ poller ∈ monitor.pollers, poller.phase = .exited
  now : match monitor.control with
    | .free => Scans mode directory subscriber (captures directory actions) shown monitor.baseline
        .waiting
    | .scanning phase =>
        Scans mode directory subscriber (captures directory actions) shown monitor.baseline phase
    | _ => False

variable {actions : List Action} {monitor after : Monitor}

theorem captures_append (action : Action) :
    captures directory (actions ++ [action]) =
      captures directory actions ++ (action.capture? directory).toList := by
  simp only [captures, List.filterMap_append, List.filterMap_cons, List.filterMap_nil]
  cases action.capture? directory <;> rfl

theorem watched_go {signal : Signal} (may : watched subscriber monitor (.go .caller signal) = true) :
    (∀ recognizer, ∃ activity ∈ monitor.activities, activity.kind = .builtIn recognizer) ∧
      subscriber ∈ monitor.listeners := by
  simp only [watched, Bool.and_eq_true, List.all_eq_true, List.any_eq_true, decide_eq_true_eq,
    List.contains_iff_mem] at may
  refine ⟨fun recognizer => may.1 recognizer ?_, may.2⟩
  cases recognizer <;> decide

theorem scan_step {phase : CyclePhase} {signal : Signal}
    (control : monitor.control = .scanning phase)
    (taken : monitor.step (.go .caller signal) = some (after, more)) :
    (∃ result, phase = .leaving result ∧ signal = .proceed ∧
      after = { monitor with control := .free } ∧
      more = [.left .caller result, .returned .scan result]) ∨
    ∃ step, monitor.stepCycle .caller phase signal = some step ∧
      after = { monitor with
        baseline := step.publishes.or monitor.baseline, control := .scanning step.phase } ∧
      more = step.shown := by
  simp only [Monitor.step, stepControl] at taken
  split at taken
  case h_15 result leaving =>
    cases control.symm.trans leaving
    cases taken
    exact .inl ⟨result, rfl, rfl, rfl, rfl⟩
  case h_16 scanning _ =>
    cases control.symm.trans scanning
    simp only [Option.bind_eq_bind, Option.bind_eq_some_iff] at taken
    obtain ⟨step, goes, taken⟩ := taken
    cases taken
    exact .inr ⟨step, goes, by rw [publish_eq], rfl⟩
  all_goals simp_all

theorem Watches.go {signal : Signal}
    (watches : Watches mode directory subscriber actions shown monitor)
    (may : watched subscriber monitor (.go .caller signal) = true)
    (taken : monitor.step (.go .caller signal) = some (after, more)) :
    Watches mode directory subscriber (actions ++ [.go .caller signal]) (shown ++ more) after := by
  obtain ⟨equipped, listens⟩ := watched_go may
  have now := watches.now
  split at now
  · rename_i free
    simp [Monitor.step, stepControl, free] at taken
  · rename_i phase control
    rcases scan_step control taken with ⟨result, rfl, rfl, rfl, rfl⟩ | ⟨step, goes, rfl, rfl⟩
    · refine ⟨watches.place, watches.sameMode, watches.stopped, watches.gone, ?_⟩
      obtain ⟨settled, baseline⟩ := now
      rw [captures_append]
      show Settled _ _ (_ ++ []) _ _ ∧ _ = (_ ++ []).getLast?
      rw [List.append_nil]
      exact ⟨settled.quiet rfl, baseline⟩
    · refine ⟨watches.place, watches.sameMode, watches.stopped, watches.gone, ?_⟩
      rw [captures_append]
      by_cases looks : ∃ place, phase = .located place
      · obtain ⟨place, rfl⟩ := looks
        exact now.looks goes
      · have elsewhere : ∀ place, phase ≠ .located place := by
          intro place here
          exact looks ⟨place, here⟩
        rw [capture?_of_elsewhere goes elsewhere, Option.toList_none, List.append_nil]
        exact now.move watches.place watches.sameMode equipped listens (stepCycle_move goes)
          elsewhere
  · exact now.elim

theorem Watches.edited {action : Action}
    (watches : Watches mode directory subscriber actions shown monitor)
    (blind : action.capture? directory = none) (activities : Registry Activity)
    (listeners : Registry Subscriber) (serials : Nat) (delay : UInt64) :
    Watches mode directory subscriber (actions ++ [action]) (shown ++ [])
      { monitor with activities, listeners, serials, delay } := by
  refine ⟨watches.place, watches.sameMode, watches.stopped, watches.gone, ?_⟩
  rw [captures_append, blind, Option.toList_none, List.append_nil, List.append_nil]
  exact watches.now

/-- A call finds the caller free, and either is refused or begins a scan. -/
theorem Watches.called {operation : Operation}
    (watches : Watches mode directory subscriber actions shown monitor)
    (free : monitor.control = .free) (control : Control)
    (goesOn : control = .free ∨ control = .scanning .waiting)
    (quiet : more = [] ∨ ∃ result, more = [.returned operation result]) :
    Watches mode directory subscriber (actions ++ [.call operation]) (shown ++ more)
      { monitor with control } := by
  have now := watches.now
  rw [free] at now
  obtain ⟨settled, baseline⟩ := now
  have unheard : more.foldl (hear subscriber) (heard subscriber shown) =
      heard subscriber shown := by
    rcases quiet with rfl | ⟨result, rfl⟩ <;> rfl
  have kept : Scans mode directory subscriber (captures directory (actions ++ [.call operation]))
      (shown ++ more) monitor.baseline .waiting := by
    rw [captures_append]
    show Settled _ _ (_ ++ []) _ _ ∧ _ = (_ ++ []).getLast?
    rw [List.append_nil]
    exact ⟨settled.quiet unheard, baseline⟩
  refine ⟨watches.place, watches.sameMode, watches.stopped, watches.gone, ?_⟩
  rcases goesOn with rfl | rfl <;> exact kept

theorem Watches.call {operation : Operation}
    (watches : Watches mode directory subscriber actions shown monitor)
    (may : watched subscriber monitor (.call operation) = true)
    (taken : monitor.step (.call operation) = some (after, more)) :
    Watches mode directory subscriber (actions ++ [.call operation]) (shown ++ more) after := by
  have idle : monitor.isRunning = false := by
    rw [isRunning, watches.stopped]
    rfl
  obtain ⟨free, begun⟩ := begin_of_step taken
  have here : { monitor with control := .free } = monitor := by rw [← free]
  cases operation with
  | start | setDirectory => simp [watched] at may
  | stop =>
      have cannot : monitor.lifecycle.can .stop = false := by
        rw [watches.stopped]
        decide
      simp only [begin, cannot, Bool.false_eq_true, if_false] at begun
      cases begun
      exact here ▸ watches.called free .free (.inl rfl) (.inr ⟨_, rfl⟩)
  | scan =>
      simp only [begin, idle, Bool.false_eq_true, if_false] at begun
      cases begun
      exact watches.called free _ (.inr rfl) (.inl rfl)
  | drop =>
      simp only [begin, idle, Bool.false_eq_true, if_false] at begun
      cases begun
      exact here ▸ watches.called free .free (.inl rfl) (.inr ⟨_, rfl⟩)

theorem Watches.step {action : Action}
    (watches : Watches mode directory subscriber actions shown monitor)
    (may : watched subscriber monitor action = true)
    (taken : monitor.step action = some (after, more)) :
    Watches mode directory subscriber (actions ++ [action]) (shown ++ more) after := by
  cases action with
  | go actor signal =>
      cases actor with
      | caller => exact watches.go may taken
      | poller index =>
          obtain ⟨poller, here, taken⟩ := stepPoller_of_step taken
          have gone := watches.gone poller (List.mem_of_getElem? here)
          simp [stepPoller, gone] at taken
  | call operation => exact watches.call may taken
  | addActivity | addBuiltIns | removeActivity | addListener | removeListener | setDelay =>
      cases taken
      exact watches.edited rfl _ _ _ _

theorem Watches.start (rest : monitor.AtRest) :
    Watches monitor.firstScan monitor.directory subscriber [] [] monitor := by
  refine ⟨rfl, rfl, rest.stopped, rest.gone, ?_⟩
  rw [rest.free]
  refine ⟨⟨?_, by simp [heard], by simp [heard]⟩, rest.nothing⟩
  cases monitor.firstScan <;> rfl

theorem takenOf_of_mem_captures {snapshot : Snapshot} (member : snapshot ∈ captures directory actions) :
    snapshot.TakenOf directory := by
  obtain ⟨action, -, found⟩ := List.mem_filterMap.mp member
  unfold Action.capture? at found
  split at found
  · rename_i view
    cases captured : Snapshot.capture view directory with
    | error fault => simp [captured, Except.toOption] at found
    | ok after =>
        simp only [captured, Except.toOption, Option.some.injEq] at found
        subst found
        exact ⟨Snapshot.keyed_capture captured, Snapshot.directory_capture captured⟩
  · simp at found

theorem takenOf_of_mem_passed {snapshot : Snapshot}
    (member : snapshot ∈ passed mode directory (captures directory actions)) :
    snapshot.TakenOf directory := by
  cases mode with
  | baseline => exact takenOf_of_mem_captures member
  | reportExisting =>
      rcases List.mem_cons.mp member with rfl | captured
      · exact ⟨Snapshot.keyed_empty directory, rfl⟩
      · exact takenOf_of_mem_captures captured

/-- After every scan, what the built-in recognizers had a subscriber told leads it from where it
began to the baseline, which is the last capture. A scan that finds the baseline as it was has them
tell nothing. -/
theorem baseline_retold {first last : Monitor} (rest : first.AtRest)
    (run : first.steps (watched subscriber) actions = some (last, shown))
    (free : last.control = .free) :
    let seen := captures first.directory actions
    let route := passed first.firstScan first.directory seen
    last.baseline = seen.getLast? ∧
      (hearings subscriber shown).map Hearing.comparison = comparisons first.directory route ∧
      (∀ origin baseline told, route.head? = some origin → last.baseline = some baseline →
        List.Forall₂ Hearing.Picks (hearings subscriber shown) told →
          (origin.replay (told.flatten.flatMap Report.changes)).Same baseline) ∧
      (∀ hearing ∈ hearings subscriber shown,
        hearing.comparison.before.Same hearing.comparison.after →
          ∀ recognizer, hearing.comparison.finding recognizer ∉ hearing.reports) ∧
      ∀ hearing ∈ hearings subscriber shown, ∀ report ∈ hearing.reports,
        Explained shown hearing.comparison report := by
  intro seen route
  have watches : Watches first.firstScan first.directory subscriber actions shown last :=
    steps_traced (.start rest) (fun may watches taken => Watches.step watches may taken) run
  have now := watches.now
  rw [free] at now
  obtain ⟨settled, baseline⟩ := now
  have chain : (hearings subscriber shown).map Hearing.comparison =
      comparisons first.directory route := settled.chain
  have taken : ∀ snapshot ∈ route, snapshot.TakenOf first.directory :=
    fun _ => takenOf_of_mem_passed
  have complete : ∀ hearing ∈ hearings subscriber shown, hearing.Complete := by
    intro hearing member
    have among := List.mem_reverse.mp member
    exact ⟨settled.told hearing among,
      fun report listed => (settled.sound hearing among report listed).filled⟩
  refine ⟨baseline, chain, ?_, ?_, ?_⟩
  · intro origin latest told begins isLatest picks
    obtain ⟨others, split⟩ := List.head?_eq_some_iff.mp begins
    rw [split] at chain taken
    refine retell chain complete taken picks (.refl origin) latest ?_
    rw [← split]
    exact getLast?_passed (baseline.symm.trans isLatest)
  · intro hearing member same recognizer
    have listed : hearing.comparison ∈ comparisons first.directory route := by
      rw [← chain]
      exact List.mem_map_of_mem member
    obtain ⟨⟨beforeKeyed, -⟩, ⟨afterKeyed, -⟩⟩ := takenOf_of_mem_comparisons taken listed
    exact (complete hearing member).silent beforeKeyed afterKeyed same recognizer
  · intro hearing member report listed
    exact (settled.sound hearing (List.mem_reverse.mp member) report listed).explained

def me : Subscriber := ⟨.held "me"⟩

/-- A directory of files that all have one length. -/
def uniformView (names : List UInt8) (length : UInt64) : DirectoryView where
  list _ := .ok (names.map fun name => .entry [name])
  lookup _ := .ok (.file length (.ofNanos 0))

def failingView : DirectoryView := ⟨fun _ => .error .missing, fun _ => .error .missing⟩

/-- One scan with four recognizers, of which one panics, and two listeners, of which one fails. -/
def scanOf (view : DirectoryView) (reports : Nat) : List Action :=
  [.call .scan, .go .caller .proceed, .go .caller .proceed, .go .caller (.saw view),
    .go .caller .proceed, .go .caller .proceed, .go .caller .proceed] ++
  (List.replicate 4 [.go .caller .proceed, .go .caller (.recognized none)]).flatten ++
  [.go .caller .proceed] ++
  (List.replicate reports [.go .caller .proceed, .go .caller (.handled .panicked),
    .go .caller .proceed, .go .caller (.handled (.failed "full"))]).flatten ++
  [.go .caller .proceed, .go .caller .proceed, .go .caller .proceed]

/-- Two files come, a capture fails, and then one file comes, one goes and one grows. -/
def threeScans : List Action :=
  [.addActivity ⟨.held "odd", .custom "created"⟩, .addBuiltIns, .addListener ⟨.held "other"⟩,
    .addListener me] ++
  scanOf (uniformView [97, 98] 1) 1 ++
  [.call .scan, .go .caller .proceed, .go .caller .proceed, .go .caller (.saw failingView),
    .go .caller .proceed] ++
  scanOf (uniformView [98, 99] 2) 3

theorem baseline_retold_thrice :
    ∃ (last : Monitor) (shown : List Event) (baseline : Snapshot),
      freshMonitor.AtRest ∧
      freshMonitor.steps (watched me) threeScans = some (last, shown) ∧
      last.control = .free ∧ last.baseline = some baseline ∧ baseline.size = 2 ∧
      (hearings me shown).map (fun hearing => hearing.reports.map fun report =>
        report.changes.length) = [[2], [1, 1, 1]] ∧
      ((Snapshot.empty freshMonitor.directory).replay
        (((hearings me shown).map Hearing.builtIns).flatten.flatMap Report.changes)).Same
          baseline := by
  have checked : ((freshMonitor.steps (watched me) threeScans).any fun reached =>
      reached.1.control.isFree && reached.1.baseline.any (fun baseline => baseline.size = 2) &&
        (hearings me reached.2).map (fun hearing => hearing.reports.map fun report =>
          report.changes.length) = [[2], [1, 1, 1]]) = true := by
    decide +kernel
  obtain ⟨⟨last, shown⟩, run, holds⟩ := (Option.any_eq_true ..).mp checked
  simp only [Bool.and_eq_true, decide_eq_true_eq] at holds
  obtain ⟨⟨isFree, stored⟩, lengths⟩ := holds
  obtain ⟨baseline, isBaseline, size⟩ := (Option.any_eq_true ..).mp stored
  have free := Control.free_of_isFree isFree
  have rest := atRest_create create_freshMonitor
  have picks : List.Forall₂ Hearing.Picks (hearings me shown)
      ((hearings me shown).map Hearing.builtIns) :=
    List.forall₂_map_right_iff.mpr (List.forall₂_same.mpr fun hearing _ => hearing.picks_builtIns)
  obtain ⟨-, -, retold, -⟩ := baseline_retold rest run free
  exact ⟨last, shown, baseline, rest, run, free, isBaseline, by simpa using size, lengths,
    retold _ baseline _ rfl isBaseline picks⟩

end FolderWatch.Monitor
