import FolderWatch.Proofs.Monitor.Cycles

/-!
How a property of a whole run follows from its single steps.
-/

namespace FolderWatch.Monitor

open Trace

variable {allowed : Monitor → Action → Prop} {first last : Monitor} {shown : List Event}

@[simp] theorem marks_append (front tail : List Event) :
    marks (front ++ tail) = marks front ++ marks tail :=
  List.filter_append ..

@[simp] theorem marks_logged (actor : Actor) (lines : List LogLine) :
    marks (lines.map (.logged actor)) = [] := by
  induction lines with
  | nil => rfl
  | cons line rest ih => exact ih

theorem CycleMove.mark {monitor : Monitor} {actor : Actor} {phase : CyclePhase} {step : CycleStep}
    (move : CycleMove monitor actor phase step) :
    marks step.shown = [] ∨ ∃ event, marks step.shown = [event] := by
  cases move with
  | fails | captures | answers | handled => exact .inl (marks_logged ..)
  | locates | accepted | equips | surveys | stores => exact .inl rfl
  | _ => exact .inr ⟨_, rfl⟩

theorem Passage.mark {monitor after : Monitor} (passage : Passage monitor after shown) :
    marks shown = [] ∨ ∃ event, marks shown = [event] := by
  cases passage with
  | cycles _ move => exact move.mark
  | @ends actor result rest _ _ quiet =>
      refine .inr ⟨.left actor result, ?_⟩
      show .left actor result :: marks rest = _
      rw [quiet]
  | begins | redirects => exact .inl rfl
  | rests _ quiet => exact .inl quiet
  | rebases => exact .inr ⟨_, rfl⟩

def Event.baselineAfter (baseline : Option Snapshot) : Event → Option Snapshot
  | .published _ snapshot => some snapshot
  | .returned (.setDirectory _) (.ok _) => none
  | _ => baseline

/-- The baseline that a trace leaves: what it published last, if not before it last changed the
directory. -/
def standing (trace : List Event) : Option Snapshot := trace.foldl Event.baselineAfter none

theorem CycleMove.baseline {monitor : Monitor} {actor : Actor} {phase : CyclePhase}
    {step : CycleStep} (move : CycleMove monitor actor phase step) (before : Option Snapshot) :
    (marks step.shown).foldl Event.baselineAfter before = step.publishes.or before := by
  cases move with
  | fails | captures | answers | handled => rw [marks_logged]; rfl
  | _ => rfl

theorem Passage.baseline {monitor after : Monitor} (passage : Passage monitor after shown) :
    (marks shown).foldl Event.baselineAfter monitor.baseline = after.baseline := by
  cases passage with
  | cycles _ move _ baseline => rw [move.baseline, baseline]
  | @ends actor result rest _ _ quiet baseline =>
      show (marks rest).foldl Event.baselineAfter monitor.baseline = _
      rw [quiet, baseline]
      rfl
  | begins _ _ _ baseline | redirects _ _ baseline => exact baseline.symm
  | rests _ quiet baseline => rw [quiet, baseline]; rfl
  | rebases _ _ baseline => exact baseline.symm

theorem standing_append {monitor after : Monitor} (passage : Passage monitor after shown)
    {past : List Event} (before : monitor.baseline = standing past) :
    after.baseline = standing (past ++ marks shown) := by
  rw [standing, List.foldl_append, ← passage.baseline, before]
  rfl

theorem RunOf.invariant {holds : Monitor → Prop} (run : RunOf allowed first shown last)
    (start : holds first)
    (keeps : ∀ {monitor after : Monitor} {action : Action} {more : List Event},
      allowed monitor action → holds monitor → monitor.step action = some (after, more) →
        holds after) : holds last := by
  induction run with
  | rest => exact start
  | step action run may taken ih => exact keeps may ih taken

theorem Exclusive.run {view : DirectoryView} {workingDirectory path : Path}
    {settings : PollSettings} (created : create view workingDirectory path settings = .ok first)
    (run : RunOf allowed first shown last) : last.Exclusive := by
  refine run.invariant ?_ fun _ exclusive taken => exclusive.passage (step_move taken).passage
  rintro actor _ ⟨phase, here, -⟩
  simp [cycleOf_create created] at here

def steps (may : Monitor → Action → Bool) (monitor : Monitor) :
    List Action → Option (Monitor × List Event)
  | [] => some (monitor, [])
  | action :: rest =>
      match may monitor action, monitor.step action with
      | true, some (next, shown) =>
          (next.steps may rest).map fun (last, more) => (last, shown ++ more)
      | _, _ => none

theorem steps_cons {may : Monitor → Action → Bool} {action : Action} {rest : List Action}
    (taken : first.steps may (action :: rest) = some (last, shown)) :
    ∃ next now later, may first action = true ∧ first.step action = some (next, now) ∧
      next.steps may rest = some (last, later) ∧ shown = now ++ later := by
  simp only [Monitor.steps] at taken
  split at taken
  · rename_i next now permitted taking
    simp only [Option.map_eq_some_iff, Prod.mk.injEq, Prod.exists] at taken
    obtain ⟨_, later, goes, rfl, rfl⟩ := taken
    exact ⟨next, now, later, permitted, taking, goes, rfl⟩
  · simp at taken

theorem RunOf.steps {may : Monitor → Action → Bool} {middle : Monitor} {more : List Event}
    (run : RunOf allowed first shown middle) (actions : List Action)
    (sound : ∀ monitor action, may monitor action = true → allowed monitor action)
    (taken : middle.steps may actions = some (last, more)) :
    RunOf allowed first (shown ++ more) last := by
  induction actions generalizing middle shown more with
  | nil =>
      simp only [Monitor.steps, Option.some.injEq, Prod.mk.injEq] at taken
      obtain ⟨rfl, rfl⟩ := taken
      simpa using run
  | cons action rest ih =>
      obtain ⟨next, now, later, permitted, taking, goes, rfl⟩ := steps_cons taken
      have further := run.step action (sound middle action permitted) taking
      simpa using ih further goes

theorem exists_run (first : Monitor) (actions : List Action) (may : Monitor → Action → Bool)
    (sound : ∀ monitor action, may monitor action = true → allowed monitor action)
    (check : Monitor → List Event → Bool)
    (checked : ((first.steps may actions).any fun (last, shown) => check last shown) = true) :
    ∃ last shown, RunOf allowed first shown last ∧ check last shown = true := by
  obtain ⟨⟨last, shown⟩, taken, holds⟩ := (Option.any_eq_true ..).mp checked
  have begins : RunOf allowed first [] first := .rest first
  exact ⟨last, shown, begins.steps actions sound taken, holds⟩

/-- What holds of the actions so far, what they showed and the state, if every step keeps it. -/
theorem steps_traced {may : Monitor → Action → Bool} {actions : List Action}
    {fits : List Action → List Event → Monitor → Prop} (start : fits [] [] first)
    (keeps : ∀ {past : List Action} {shown more : List Event} {monitor after : Monitor}
      {action : Action}, may monitor action = true → fits past shown monitor →
        monitor.step action = some (after, more) → fits (past ++ [action]) (shown ++ more) after)
    (run : first.steps may actions = some (last, shown)) : fits actions shown last := by
  suffices goesOn : ∀ {past : List Action} {before : List Event} {middle : Monitor}
      {more : List Event}, fits past before middle → middle.steps may actions = some (last, more) →
        fits (past ++ actions) (before ++ more) last from goesOn start run
  clear start run
  induction actions with
  | nil =>
      intro past before middle more holds taken
      simp only [Monitor.steps, Option.some.injEq, Prod.mk.injEq] at taken
      obtain ⟨rfl, rfl⟩ := taken
      simpa using holds
  | cons action rest ih =>
      intro past before middle more holds taken
      obtain ⟨next, now, later, permitted, taking, goes, rfl⟩ := steps_cons taken
      simpa using ih (keeps permitted holds taking) goes

def Control.isFree : Control → Bool
  | .free => true
  | _ => false

theorem Control.free_of_isFree {control : Control} (told : control.isFree = true) :
    control = .free := by
  cases control with
  | free => rfl
  | _ => simp [Control.isFree] at told

def anyStep (_ : Monitor) (_ : Action) : Bool := true

def bareView : DirectoryView := ⟨fun _ => .ok [], fun _ => .ok .directory⟩

def freshMonitor : Monitor where
  workingDirectory := ⟨[]⟩
  directory := ⟨[]⟩
  delay := 5000
  firstScan := .reportExisting
  stopTimeout := .ofSeconds 10

theorem create_freshMonitor :
    create bareView ⟨[]⟩ ⟨[]⟩ { firstScan := .reportExisting } = .ok freshMonitor := rfl

/-- What holds of the marks so far and the state, if every step keeps it. -/
theorem RunOf.traced {fits : List Event → Monitor → Prop} (run : RunOf allowed first shown last)
    (start : fits [] first)
    (keeps : ∀ {past : List Event} {monitor after : Monitor} {action : Action}
      {more : List Event}, allowed monitor action → fits past monitor →
        monitor.step action = some (after, more) → fits (past ++ marks more) after) :
    fits (marks shown) last := by
  induction run with
  | rest => exact start
  | step action run may taken ih =>
      rw [marks_append]
      exact keeps may ih taken

end FolderWatch.Monitor
