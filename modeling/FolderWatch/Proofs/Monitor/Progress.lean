import FolderWatch.Proofs.Monitor.Retired

/-!
What a poller can do if only it goes on. Past its check it can always make the baseline its own.
-/

namespace FolderWatch

/-- A cycle past its check hands over its reports and publishes, come what may. -/
def CyclePhase.isCommitted : CyclePhase → Bool
  | .dispatching .. | .delivering .. | .storing .. => true
  | _ => false

namespace Monitor

variable {monitor : Monitor} {index : Nat}

theorem RunOf.trans {allowed : Monitor → Action → Prop} {first middle last : Monitor}
    {shown more : List Event} (run : RunOf allowed first shown middle)
    (further : RunOf allowed middle more last) : RunOf allowed first (shown ++ more) last := by
  induction further with
  | rest => simpa using run
  | step action _ may taken ih =>
      rw [← List.append_assoc]
      exact ih.step action may taken

theorem RunOf.mono {allowed permitted : Monitor → Action → Prop} {first last : Monitor}
    {shown : List Event} (run : RunOf allowed first shown last)
    (weaker : ∀ monitor action, allowed monitor action → permitted monitor action) :
    RunOf permitted first shown last := by
  induction run with
  | rest => exact .rest _
  | step action _ may taken ih => exact ih.step action (weaker _ _ may) taken

theorem Run.of_step {after : Monitor} {action : Action} {shown : List Event}
    (taken : monitor.step action = some (after, shown)) : Run monitor shown after := by
  have begins : Run monitor [] monitor := .rest monitor
  exact begins.step action trivial taken

theorem step_go {actor : Actor} {phase : CyclePhase} {signal : Signal}
    (here : monitor.cycleOf actor = some phase) (unfinished : ∀ result, phase ≠ .leaving result) :
    monitor.step (.go actor signal) = (monitor.stepCycle actor phase signal).map fun step =>
      ((monitor.publish step).setCycle actor step.phase, step.shown) := by
  cases actor with
  | caller =>
      have control := scanning_of_cycleOf here
      simp only [step, stepControl, control]
      split
      case h_15 result same =>
        cases same
        exact absurd rfl (unfinished result)
      case h_16 same _ =>
        cases same
        generalize monitor.stepCycle .caller phase _ = goes
        cases goes <;> rfl
      case h_17 => simp_all
      all_goals contradiction
  | poller index =>
      obtain ⟨poller, found, cycling⟩ := cycling_of_cycleOf here
      simp only [step, found, Option.bind_eq_bind, Option.bind_some, stepPoller, cycling]
      split
      case h_2 result same =>
        cases same
        exact absurd rfl (unfinished result)
      case h_3 same _ =>
        cases same
        generalize monitor.stepCycle (.poller index) phase _ = goes
        cases goes with
        | none => rfl
        | some step => simp [setPoller_publish found]
      case h_6 => simp_all
      all_goals contradiction

theorem exists_stepCycle {actor : Actor} {phase : CyclePhase} {signal : Signal} {after : Monitor}
    {shown : List Event} (here : monitor.cycleOf actor = some phase)
    (unfinished : ∀ result, phase ≠ .leaving result)
    (taken : monitor.step (.go actor signal) = some (after, shown)) :
    ∃ step, monitor.stepCycle actor phase signal = some step ∧
      after = (monitor.publish step).setCycle actor step.phase ∧ shown = step.shown := by
  rw [step_go here unfinished, Option.map_eq_some_iff] at taken
  obtain ⟨step, goes, taken⟩ := taken
  cases taken
  exact ⟨step, goes, rfl, rfl⟩

theorem unfinished_of_stepCycle {actor : Actor} {phase : CyclePhase} {signal : Signal}
    {step : CycleStep} (goes : monitor.stepCycle actor phase signal = some step) :
    ∀ result, phase ≠ .leaving result := by
  rintro result rfl
  cases signal <;> cases goes

theorem step_of_stepCycle {actor : Actor} {phase : CyclePhase} {signal : Signal} {step : CycleStep}
    (here : monitor.cycleOf actor = some phase)
    (goes : monitor.stepCycle actor phase signal = some step) :
    monitor.step (.go actor signal) =
      some ((monitor.publish step).setCycle actor step.phase, step.shown) := by
  rw [step_go here (unfinished_of_stepCycle goes), goes, Option.map_some]

structure Kept (index : Nat) (monitor after : Monitor) : Prop where
  others : ∀ other, other ≠ .poller index → after.cycleOf other = monitor.cycleOf other
  badges : ∀ other, after.badgeOf other = monitor.badgeOf other
  generation : after.generation = monitor.generation
  control : after.control = monitor.control
  directory : after.directory = monitor.directory
  workingDirectory : after.workingDirectory = monitor.workingDirectory

theorem Kept.refl (monitor : Monitor) : Kept index monitor monitor :=
  ⟨fun _ _ => rfl, fun _ => rfl, rfl, rfl, rfl, rfl⟩

theorem Kept.trans {middle after : Monitor} (first : Kept index monitor middle)
    (second : Kept index middle after) : Kept index monitor after where
  others other different := (second.others other different).trans (first.others other different)
  badges other := (second.badges other).trans (first.badges other)
  generation := second.generation.trans first.generation
  control := second.control.trans first.control
  directory := second.directory.trans first.directory
  workingDirectory := second.workingDirectory.trans first.workingDirectory

theorem exists_advance {phase : CyclePhase} {step : CycleStep} (signal : Signal)
    (here : monitor.cycleOf (.poller index) = some phase)
    (goes : monitor.stepCycle (.poller index) phase signal = some step) :
    ∃ after, Run monitor step.shown after ∧ after.cycleOf (.poller index) = some step.phase ∧
      after.baseline = step.publishes.or monitor.baseline ∧ Kept index monitor after := by
  refine ⟨_, .of_step (step_of_stepCycle here goes), ?_⟩
  rw [publish_eq]
  have before (other : Actor) :
      { monitor with baseline := step.publishes.or monitor.baseline }.cycleOf other =
        monitor.cycleOf other := by
    cases other <;> rfl
  have there := cycleOf_setCycle ((before _).trans here) step.phase
  refine ⟨by rw [there, if_pos rfl], rfl, fun other different => ?_, fun other => ?_, rfl, rfl, rfl,
    rfl⟩
  · rw [there, if_neg different, before]
  · exact badgeOf_setCycle _ (.poller index) _ other

/-- A poller between its calls of listeners makes all that are left, and publishes. -/
theorem exists_publishing {comparison : Comparison} {left : List Delivery} {produced : Nat}
    (here : monitor.cycleOf (.poller index) = some (.dispatching comparison left produced)) :
    ∃ shown last, Run monitor shown last ∧ marks shown =
      left.map (.called (.poller index)) ++ [.published (.poller index) comparison.after] := by
  -- By induction on the calls left, each of which is accepted.
  induction left generalizing monitor with
  | nil =>
      obtain ⟨stored, run, storing, -⟩ := exists_advance .proceed here rfl
      obtain ⟨last, further, -⟩ := exists_advance .proceed storing rfl
      exact ⟨_, last, run.trans further, rfl⟩
  | cons delivery left ih =>
      obtain ⟨calling, run, inCall, -⟩ := exists_advance .proceed here rfl
      obtain ⟨called, further, outside, -⟩ := exists_advance (.handled .accepted) inCall rfl
      obtain ⟨shown, last, later, marked⟩ := ih outside
      refine ⟨_, last, (run.trans further).trans later, ?_⟩
      rw [marks_append, marked]
      rfl

theorem exists_publishing_of_committed {phase : CyclePhase}
    (here : monitor.cycleOf (.poller index) = some phase) (committed : phase.isCommitted = true) :
    ∃ shown last, ∃ called : List Delivery, ∃ snapshot, Run monitor shown last ∧ marks shown =
      called.map (.called (.poller index)) ++ [.published (.poller index) snapshot] := by
  cases phase with
  | dispatching comparison left produced =>
      obtain ⟨shown, last, run, marked⟩ := exists_publishing here
      exact ⟨shown, last, left, _, run, marked⟩
  | delivering delivery comparison left produced =>
      obtain ⟨called, run, outside, -⟩ := exists_advance (.handled .accepted) here rfl
      obtain ⟨shown, last, later, marked⟩ := exists_publishing outside
      refine ⟨_, last, left, comparison.after, run.trans later, ?_⟩
      rw [marks_append, marked]
      rfl
  | storing after produced =>
      obtain ⟨last, run, -⟩ := exists_advance .proceed here rfl
      exact ⟨_, last, [], after, run, rfl⟩
  | _ => simp [CyclePhase.isCommitted] at committed

theorem Kept.stale {after : Monitor} {actor : Actor} (kept : Kept index monitor after)
    (stale : Stale monitor actor) : Stale after actor := by
  cases actor with
  | caller => exact stale
  | poller other =>
      obtain ⟨generation, here, past⟩ := stale
      exact ⟨generation, (kept.badges other).trans here, kept.generation ▸ past⟩

def CanLeave (monitor : Monitor) (index : Nat) : Prop :=
  ∃ shown last, Run monitor shown last ∧ last.cycleOf (.poller index) = none ∧
    last.baseline = monitor.baseline ∧ Kept index monitor last

theorem canLeave_of_leaving {result : Except Fault Nat}
    (here : monitor.cycleOf (.poller index) = some (.leaving result)) :
    CanLeave monitor index := by
  obtain ⟨poller, found, cycling⟩ := cycling_of_cycleOf here
  have stepped : ∃ shown, monitor.step (.go (.poller index) .proceed) =
      some (monitor.setPoller index { poller with phase := .resting }, shown) := by
    simp [step, found, stepPoller, cycling]
  obtain ⟨shown, taken⟩ := stepped
  have there := cycleOf_setPoller found .resting
  refine ⟨shown, _, .of_step taken, by simp [there, PollerPhase.cycle?], rfl, ?_⟩
  refine ⟨fun other different => ?_, badgeOf_setPoller found _, rfl, rfl, rfl, rfl⟩
  rw [there, if_neg different]

theorem canLeave_of_step {phase : CyclePhase} {step : CycleStep} (signal : Signal)
    (here : monitor.cycleOf (.poller index) = some phase)
    (goes : monitor.stepCycle (.poller index) phase signal = some step)
    (quiet : step.publishes = none)
    (onwards : ∀ after, Kept index monitor after →
      after.cycleOf (.poller index) = some step.phase → CanLeave after index) :
    CanLeave monitor index := by
  obtain ⟨after, run, there, baseline, kept⟩ := exists_advance signal here goes
  obtain ⟨shown, last, further, gone, still, keeps⟩ := onwards after kept there
  refine ⟨_, last, run.trans further, gone, ?_, kept.trans keeps⟩
  rw [still, baseline, quiet]
  rfl

theorem exists_note (survey : Survey) (activity : Activity) (answer : Option (List Change)) :
    ∃ found, survey.note activity answer = { survey with reports := survey.reports ++ found } := by
  rcases answer with _ | _ | ⟨first, others⟩
  · exact ⟨[], by simp [Survey.note]⟩
  · exact ⟨[], by simp [Survey.note]⟩
  · exact ⟨_, rfl⟩

theorem canLeave_of_recognizing {comparison : Comparison} {subscribers : List Subscriber}
    {left : List Activity} {reports : List Report} (stale : Stale monitor (.poller index))
    (here : monitor.cycleOf (.poller index) =
      some (.recognizing ⟨comparison, subscribers, left, reports⟩)) :
    CanLeave monitor index := by
  -- By induction on the recognizers left; no answer of theirs makes a stale cycle current.
  induction left generalizing monitor reports with
  | nil =>
      have drops : monitor.stepCycle (.poller index)
          (.recognizing ⟨comparison, subscribers, [], reports⟩) .proceed = some {
            phase := .leaving (.ok 0)
            shown := [.dropped (.poller index),
              .logged (.poller index) (CyclePhase.droppedLine comparison.directory)] } := by
        simp [stepCycle, stale.notCurrent]
      exact canLeave_of_step .proceed here drops rfl fun after _ there => canLeave_of_leaving there
  | cons activity left ih =>
      refine canLeave_of_step .proceed here rfl rfl fun asking kept asked => ?_
      refine canLeave_of_step (.recognized none) asked rfl rfl fun after keeps there => ?_
      obtain ⟨found, noted⟩ := exists_note ⟨comparison, subscribers, left, reports⟩ activity
        (activity.answer comparison none)
      exact ih (keeps.stale (kept.stale stale)) (noted ▸ there)

theorem canLeave_of_equipped {comparison : Comparison} {activities : List Activity}
    (stale : Stale monitor (.poller index))
    (here : monitor.cycleOf (.poller index) = some (.equipped comparison activities)) :
    CanLeave monitor index := by
  refine canLeave_of_step .proceed here rfl rfl fun after kept there => ?_
  exact canLeave_of_recognizing (kept.stale stale) there

theorem canLeave_of_comparing {comparison : Comparison} (stale : Stale monitor (.poller index))
    (here : monitor.cycleOf (.poller index) = some (.comparing comparison)) :
    CanLeave monitor index := by
  refine canLeave_of_step .proceed here rfl rfl fun after kept there => ?_
  exact canLeave_of_equipped (kept.stale stale) there

theorem canLeave_of_adopting {directory : Path} {snapshot : Snapshot}
    (stale : Stale monitor (.poller index))
    (here : monitor.cycleOf (.poller index) = some (.adopting directory snapshot)) :
    CanLeave monitor index := by
  have drops : monitor.stepCycle (.poller index) (.adopting directory snapshot) .proceed = some {
      phase := .leaving (.ok 0), shown := [.dropped (.poller index)] } := by
    simp [stepCycle, stale.notCurrent]
  exact canLeave_of_step .proceed here drops rfl fun after _ there => canLeave_of_leaving there

theorem canLeave_of_captured {directory : Path} {snapshot : Snapshot}
    (stale : Stale monitor (.poller index))
    (here : monitor.cycleOf (.poller index) = some (.captured directory snapshot)) :
    CanLeave monitor index := by
  refine canLeave_of_step .proceed here rfl rfl fun after kept there => ?_
  split at there
  · exact canLeave_of_comparing (kept.stale stale) there
  · exact canLeave_of_adopting (kept.stale stale) there
  · exact canLeave_of_comparing (kept.stale stale) there

theorem canLeave_of_located {directory : Path} (stale : Stale monitor (.poller index))
    (here : monitor.cycleOf (.poller index) = some (.located directory)) :
    CanLeave monitor index := by
  refine canLeave_of_step (.saw bareView) here rfl rfl fun after kept there => ?_
  exact canLeave_of_captured (kept.stale stale) there

/-- A cycle that is stale and not past its check can end without a trace. -/
theorem canLeave_of_stale {phase : CyclePhase} (stale : Stale monitor (.poller index))
    (here : monitor.cycleOf (.poller index) = some phase) (inside : phase.isInside = true)
    (early : phase.isCommitted = false) : CanLeave monitor index := by
  cases phase with
  | waiting => simp [CyclePhase.isInside] at inside
  | entered =>
      refine canLeave_of_step .proceed here rfl rfl fun after kept there => ?_
      exact canLeave_of_located (kept.stale stale) there
  | located => exact canLeave_of_located stale here
  | captured => exact canLeave_of_captured stale here
  | adopting => exact canLeave_of_adopting stale here
  | comparing => exact canLeave_of_comparing stale here
  | equipped => exact canLeave_of_equipped stale here
  | recognizing => exact canLeave_of_recognizing stale here
  | consulting activity survey =>
      refine canLeave_of_step (.recognized none) here rfl rfl fun after kept there => ?_
      obtain ⟨found, noted⟩ := exists_note survey activity (activity.answer survey.comparison none)
      exact canLeave_of_recognizing (kept.stale stale) (noted ▸ there)
  | dispatching | delivering | storing => simp [CyclePhase.isCommitted] at early
  | leaving => exact canLeave_of_leaving here

end Monitor

end FolderWatch
