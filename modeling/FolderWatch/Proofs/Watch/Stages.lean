import FolderWatch.Program.Watch
import FolderWatch.Proofs.Drain.Callers
import FolderWatch.Proofs.Monitor.Alone

/-!
What the single steps of a watch do, and where its monitor and its drain are at each stage of the
main thread, as long as neither stop gives up.
-/

namespace FolderWatch.Watch

variable {watch after : Watch} {action : Action} {shown : List Event}

/-- What the listener was told of. -/
def reports (shown : List Event) : List Report :=
  shown.filterMap fun event =>
    match event with
    | .told report => some report
    | .wrote _ => none

def told (shown : List Event) : List Change := (reports shown).flatMap Report.changes

@[simp] theorem reports_append (first second : List Event) :
    reports (first ++ second) = reports first ++ reports second :=
  List.filterMap_append

@[simp] theorem told_append (first second : List Event) :
    told (first ++ second) = told first ++ told second := by
  rw [told, reports_append, List.flatMap_append]
  rfl

@[simp] theorem written_append (first second : List Event) :
    written (first ++ second) = written first ++ written second :=
  List.filterMap_append

theorem tellings_cons (event : Monitor.Event) (rest : List Monitor.Event) :
    tellings (event :: rest) = tellings [event] ++ tellings rest :=
  List.filterMap_append (l := [event])

inductive Move (watch : Watch) : Action → Watch → List Event → Prop
  | advances {after : Watch} (advanced : watch.advance = some after) :
      Move watch .advance after []
  | turns {actor : Monitor.Actor} {signal : Monitor.Signal} {monitor : Monitor}
      {events : List Monitor.Event} (returns : watch.returns signal = true)
      (taken : watch.monitor.step (.go actor signal) = some (monitor, events)) :
      Move watch (.monitor actor signal) (events.foldl notice { watch with monitor })
        (tellings events)
  | steers {signal : Drain.Signal} {drain : Drain Change} {events : List (Drain.Event Change)}
      (taken : watch.drain.step (.control signal) = some (drain, events)) :
      Move watch (.control signal) { watch with drain } []
  | works {worker : Nat} {signal : Drain.Signal} {drain : Drain Change}
      {events : List (Drain.Event Change)} (returns : watch.callbackReturns signal = true)
      (taken : watch.drain.step (.work worker signal) = some (drain, events)) :
      Move watch (.work worker signal)
        { watch with drain, outgoing := events.foldl takeUp watch.outgoing } []
  | queues {change : Change} {incoming : List Change} {drain : Drain Change}
      {events : List (Drain.Event Change)} (batched : watch.isBatched = true)
      (next : watch.incoming = change :: incoming)
      (taken : watch.drain.step (.push change) = some (drain, events)) :
      Move watch .pass { watch with drain, incoming } []
  | passes {change : Change} {incoming : List Change} (direct : watch.isBatched = false)
      (next : watch.incoming = change :: incoming) :
      Move watch .pass { watch with incoming } (writings watch.plan change)
  | writes {change : Change} {outgoing : List Change} (next : watch.outgoing = change :: outgoing) :
      Move watch .write { watch with outgoing } (writings watch.plan change)

theorem step_move (taken : watch.step action = some (after, shown)) :
    watch.stage ≠ .finished ∧ Move watch action after shown := by
  simp only [step] at taken
  split at taken
  case h_1 => simp at taken
  case h_2 going =>
    obtain ⟨advanced, here, same⟩ := Option.map_eq_some_iff.mp taken
    cases same
    exact ⟨going, .advances here⟩
  case h_3 going =>
    split at taken
    · rename_i returns
      simp only [Option.bind_eq_bind, Option.bind_eq_some_iff] at taken
      obtain ⟨⟨monitor, events⟩, here, same⟩ := taken
      cases same
      exact ⟨going, .turns returns here⟩
    · simp at taken
  case h_4 going =>
    simp only [Option.bind_eq_bind, Option.bind_eq_some_iff] at taken
    obtain ⟨⟨drain, events⟩, here, same⟩ := taken
    cases same
    exact ⟨going, .steers here⟩
  case h_5 going =>
    split at taken
    · rename_i returns
      simp only [Option.bind_eq_bind, Option.bind_eq_some_iff] at taken
      obtain ⟨⟨drain, events⟩, here, same⟩ := taken
      cases same
      exact ⟨going, .works returns here⟩
    · simp at taken
  case h_6 going =>
    split at taken
    · simp at taken
    · rename_i next
      split at taken
      · rename_i batched
        simp only [Option.bind_eq_bind, Option.bind_eq_some_iff] at taken
        obtain ⟨⟨drain, events⟩, here, same⟩ := taken
        cases same
        exact ⟨going, .queues batched next here⟩
      · rename_i direct
        cases taken
        exact ⟨going, .passes (by simpa using direct) next⟩
  case h_7 going =>
    split at taken
    · simp at taken
    · rename_i next
      cases taken
      exact ⟨going, .writes next⟩

def Action.givesUp : Action → Bool
  | .monitor .caller .leave | .control .leave => true
  | _ => false

/-- A run in which neither stop gives up waiting. -/
inductive PatientRun : Watch → List Event → Watch → Prop
  | rest (watch : Watch) : PatientRun watch [] watch
  | step {first middle last : Watch} {shown more : List Event} (action : Action)
      (run : PatientRun first shown middle) (waits : action.givesUp = false)
      (taken : middle.step action = some (last, more)) : PatientRun first (shown ++ more) last

def MonitorRests (watch : Watch) (running : Bool) : Prop :=
  watch.monitor.control = .free ∧ watch.monitor.isRunning = running

def DrainRests (watch : Watch) (running : Bool) : Prop :=
  watch.drain.control = .free ∧ watch.drain.isRunning = running

/-- Where the monitor and the drain are. Unbatched, the drain rests from beginning to end. -/
def Placed (watch : Watch) : Prop :=
  match watch.stage with
  | .opening | .finished => watch.MonitorRests false ∧ watch.DrainRests false
  | .arming =>
      watch.isBatched = true ∧ watch.MonitorRests false ∧
        (watch.drain.control.IsStart ∨ watch.DrainRests true)
  | .starting => watch.DrainRests watch.isBatched
  | .watching => watch.MonitorRests true ∧ watch.DrainRests watch.isBatched
  | .closing =>
      (watch.monitor.control.IsStop ∨ watch.MonitorRests false) ∧ watch.DrainRests watch.isBatched
  | .draining =>
      watch.isBatched = true ∧ watch.MonitorRests false ∧
        (watch.drain.control.IsStop ∨ watch.DrainRests false)

structure Staged (watch : Watch) : Prop where
  monitor : watch.monitor.Coherent
  alone : watch.monitor.Alone
  drain : watch.drain.Coherent
  placed : watch.Placed

theorem notice_eq (watch : Watch) (events : List Monitor.Event) :
    ∃ fault, events.foldl notice watch =
      { watch with incoming := watch.incoming ++ told (tellings events), fault } := by
  induction events generalizing watch with
  | nil => exact ⟨watch.fault, by simp [tellings, told, reports]⟩
  | cons event rest ih =>
      have first : ∃ fault, watch.notice event =
          { watch with incoming := watch.incoming ++ told (tellings [event]), fault } := by
        cases event with
        | called actor delivery => exact ⟨watch.fault, by simp [notice, tellings, told, reports]⟩
        | returned operation result =>
            cases result with
            | error fault => exact ⟨some fault, by simp [notice, tellings, told, reports]⟩
            | ok found => exact ⟨watch.fault, by simp [notice, tellings, told, reports]⟩
        | entered | recalled | consulted | decided | dropped | published | left | logged =>
            exact ⟨watch.fault, by simp [notice, tellings, told, reports]⟩
      obtain ⟨fault, noticed⟩ := first
      obtain ⟨found, rests⟩ := ih (watch.notice event)
      refine ⟨found, ?_⟩
      rw [List.foldl_cons, rests, noticed, tellings_cons event rest, told_append]
      simp

theorem operate_eq_some_iff {operation : Monitor.Operation} {stage : Stage} :
    watch.operate operation stage = some after ↔ ∃ monitor events,
      watch.monitor.step (.call operation) = some (monitor, events) ∧
        { watch with monitor, stage } = after := by
  simp [Watch.operate, Option.bind_eq_some_iff]

theorem operateDrain_eq_some_iff {operation : Drain.Operation} {stage : Stage} :
    watch.operateDrain operation stage = some after ↔ ∃ drain events,
      watch.drain.step (.call operation) = some (drain, events) ∧
        { watch with drain, stage } = after := by
  simp [Watch.operateDrain, Option.bind_eq_some_iff]

/-- What the main thread comes to is a call of the monitor or of the drain at most. -/
inductive Advances (watch : Watch) : Watch → Prop
  | turns (stage : Stage) : Advances watch { watch with stage }
  | operates {operation : Monitor.Operation} {stage : Stage} {monitor : Monitor}
      {events : List Monitor.Event}
      (taken : watch.monitor.step (.call operation) = some (monitor, events)) :
      Advances watch { watch with monitor, stage }
  | operatesDrain {operation : Drain.Operation} {stage : Stage} {drain : Drain Change}
      {events : List (Drain.Event Change)}
      (taken : watch.drain.step (.call operation) = some (drain, events)) :
      Advances watch { watch with drain, stage }

theorem advances_of_operate {operation : Monitor.Operation} {stage : Stage}
    (taken : watch.operate operation stage = some after) : Advances watch after := by
  obtain ⟨monitor, events, here, rfl⟩ := operate_eq_some_iff.mp taken
  exact .operates here

theorem advances_of_operateDrain {operation : Drain.Operation} {stage : Stage}
    (taken : watch.operateDrain operation stage = some after) : Advances watch after := by
  obtain ⟨drain, events, here, rfl⟩ := operateDrain_eq_some_iff.mp taken
  exact .operatesDrain here

theorem advances_of_leaveDrain {operation : Drain.Operation}
    (taken : watch.leaveDrain operation = some after) : Advances watch after := by
  unfold Watch.leaveDrain at taken
  split at taken
  · exact advances_of_operateDrain taken
  · cases taken
    exact .turns .finished

theorem advances_of_advance (advanced : watch.advance = some after) : Advances watch after := by
  simp only [Watch.advance] at advanced
  split at advanced
  case h_1 =>
    split at advanced
    · exact advances_of_operateDrain advanced
    · exact advances_of_operate advanced
  case h_2 | h_4 => exact advances_of_operate advanced
  case h_3 =>
    split at advanced
    · cases advanced
      exact .turns .watching
    · exact advances_of_leaveDrain advanced
  case h_5 => exact advances_of_leaveDrain advanced
  case h_6 =>
    cases advanced
    exact .turns .finished
  case h_7 => simp at advanced

theorem Staged.operate {operation : Monitor.Operation} {stage : Stage} (staged : Staged watch)
    (taken : watch.operate operation stage = some after)
    (placed : ∀ {monitor : Monitor} {events : List Monitor.Event},
      watch.monitor.step (.call operation) = some (monitor, events) →
        Placed { watch with monitor, stage }) : Staged after := by
  obtain ⟨monitor, events, here, rfl⟩ := operate_eq_some_iff.mp taken
  exact ⟨staged.monitor.move (Monitor.step_move here),
    staged.alone.step staged.monitor (by simp) here, staged.drain, placed here⟩

theorem Staged.operateDrain {operation : Drain.Operation} {stage : Stage} {control : Drain.Control}
    (staged : Staged watch) (taken : watch.operateDrain operation stage = some after)
    (begins : watch.drain.step (.call operation) = some ({ watch.drain with control }, []))
    (placed : Placed { watch with drain := { watch.drain with control }, stage }) :
    Staged after := by
  have coherent := staged.drain.step begins
  simp only [Watch.operateDrain, begins, Option.bind_eq_bind, Option.bind_some] at taken
  cases taken
  exact ⟨staged.monitor, staged.alone, coherent, placed⟩

/-- Unbatched, there is no drain to leave, and the main thread is through. -/
theorem Staged.leaveDrain {operation : Drain.Operation} (staged : Staged watch)
    (taken : watch.leaveDrain operation = some after) (monitor : watch.MonitorRests false)
    (drain : watch.DrainRests watch.isBatched)
    (begins : watch.isBatched = true → watch.drain.step (.call operation) =
      some ({ watch.drain with control := .stopping }, [])) : Staged after := by
  unfold Watch.leaveDrain at taken
  split at taken
  · rename_i batched
    exact staged.operateDrain taken (begins batched) ⟨batched, monitor, .inl trivial⟩
  · rename_i direct
    cases taken
    rw [Bool.not_eq_true] at direct
    rw [direct] at drain
    exact ⟨staged.monitor, staged.alone, staged.drain, monitor, drain⟩

theorem Staged.moveOn {stage : Stage} (staged : Staged watch)
    (placed : Placed { watch with stage }) : Staged { watch with stage } :=
  ⟨staged.monitor, staged.alone, staged.drain, placed⟩

theorem Staged.advance (staged : Staged watch) (advanced : watch.advance = some after) :
    Staged after := by
  have placed := staged.placed
  unfold Placed at placed
  simp only [Watch.advance] at advanced
  split at advanced
  case h_1 stage free drainFree =>
    rw [stage] at placed
    obtain ⟨monitor, drain⟩ := placed
    split at advanced
    · rename_i batched
      exact staged.operateDrain advanced (staged.drain.call_start drain.1 drain.2)
        ⟨batched, monitor, .inl trivial⟩
    · rename_i direct
      rw [Bool.not_eq_true] at direct
      refine staged.operate advanced fun _ => ?_
      show watch.DrainRests watch.isBatched
      rw [direct]
      exact drain
  case h_2 stage free drainFree =>
    rw [stage] at placed
    obtain ⟨batched, monitor, drain⟩ := placed
    refine staged.operate advanced fun _ => ?_
    show watch.DrainRests watch.isBatched
    rw [batched]
    rcases drain with starts | rests
    · simp [drainFree, Drain.Control.IsStart] at starts
    · exact rests
  case h_3 stage free drainFree =>
    rw [stage] at placed
    split at advanced
    · rename_i running
      cases advanced
      exact staged.moveOn ⟨⟨free, running⟩, placed⟩
    · rename_i stopped
      rw [Bool.not_eq_true] at stopped
      refine staged.leaveDrain advanced ⟨free, stopped⟩ placed ?_
      intro batched
      exact Drain.call_drop drainFree (placed.2.trans batched)
  case h_4 stage free drainFree =>
    rw [stage] at placed
    obtain ⟨monitor, drain⟩ := placed
    refine staged.operate advanced fun taken => ?_
    rw [staged.monitor.call_stop monitor.1 monitor.2] at taken
    cases taken
    exact ⟨.inl trivial, drain⟩
  case h_5 stage free drainFree =>
    rw [stage] at placed
    obtain ⟨monitor, drain⟩ := placed
    refine staged.leaveDrain advanced ?_ drain ?_
    · rcases monitor with stops | rests
      · simp [free, Monitor.Control.IsStop] at stops
      · exact rests
    · intro batched
      exact staged.drain.call_stop drainFree (drain.2.trans batched)
  case h_6 stage free drainFree =>
    rw [stage] at placed
    obtain ⟨-, monitor, drain⟩ := placed
    cases advanced
    refine staged.moveOn ⟨monitor, ?_⟩
    rcases drain with stops | rests
    · simp [drainFree, Drain.Control.IsStop] at stops
    · exact rests
  case h_7 => simp at advanced

/-- A step of a poller leaves the monitor where its caller has it. -/
theorem Staged.turn {actor : Monitor.Actor} {signal : Monitor.Signal} {monitor : Monitor}
    {events : List Monitor.Event} (staged : Staged watch)
    (waits : (Action.monitor actor signal).givesUp = false)
    (taken : watch.monitor.step (.go actor signal) = some (monitor, events)) :
    Staged { watch with monitor } := by
  have patient : Monitor.Action.go actor signal ≠ .go .caller .leave := by
    intro same
    cases same
    simp [Action.givesUp] at waits
  refine ⟨staged.monitor.move (Monitor.step_move taken),
    staged.alone.step staged.monitor patient taken, staged.drain, ?_⟩
  have placed := staged.placed
  -- A monitor at rest has no caller to take the step, so a poller took it.
  have rests {running : Bool} (rest : watch.MonitorRests running) :
      monitor.control = .free ∧ monitor.isRunning = running := by
    obtain ⟨free, same⟩ := rest
    cases actor with
    | caller => simp [Monitor.step, Monitor.stepControl, free] at taken
    | poller index =>
        obtain ⟨baseline, pollers, rfl, -⟩ := (Monitor.pollerStep_of_step taken).frame
        exact ⟨free, same⟩
  simp only [Placed] at placed ⊢
  cases stage : watch.stage <;> simp only [stage] at placed ⊢
  case opening | finished => exact ⟨rests placed.1, placed.2⟩
  case arming | draining => exact ⟨placed.1, rests placed.2.1, placed.2.2⟩
  case starting => exact placed
  case watching => exact ⟨rests placed.1, placed.2⟩
  case closing =>
    refine ⟨?_, placed.2⟩
    rcases placed.1 with stops | rest
    · exact (Monitor.step_move taken).stops staged.monitor stops
    · exact .inr (rests rest)

theorem Staged.kept (staged : Staged watch) (stage : after.stage = watch.stage)
    (plan : after.plan = watch.plan) (monitor : after.monitor = watch.monitor)
    (drain : after.drain.Coherent) (control : after.drain.control = watch.drain.control)
    (running : after.drain.isRunning = watch.drain.isRunning) : Staged after := by
  refine ⟨monitor ▸ staged.monitor, monitor ▸ staged.alone, drain, ?_⟩
  have placed := staged.placed
  unfold Placed MonitorRests DrainRests isBatched at placed ⊢
  rw [stage, plan, monitor, control, running]
  exact placed

/-- A step of the drain's caller belongs to its start or to its stop. -/
theorem Staged.steer {signal : Drain.Signal} {drain : Drain Change}
    {events : List (Drain.Event Change)} (staged : Staged watch)
    (taken : watch.drain.step (.control signal) = some (drain, events)) :
    Staged { watch with drain } := by
  have move := Drain.control_move taken
  have busy {running : Bool} : ¬ watch.DrainRests running := by
    intro rest
    simp [Drain.step, Drain.stepControl, rest.1] at taken
  refine ⟨staged.monitor, staged.alone, staged.drain.step taken, ?_⟩
  have placed := staged.placed
  simp only [Placed] at placed ⊢
  cases stage : watch.stage <;> simp only [stage] at placed ⊢
  case opening | finished | watching | closing => exact absurd placed.2 busy
  case starting => exact absurd placed busy
  case arming =>
    obtain ⟨batched, monitor, starts | rests⟩ := placed
    · exact ⟨batched, monitor, move.starts staged.drain starts⟩
    · exact absurd rests busy
  case draining =>
    obtain ⟨batched, monitor, stops | rests⟩ := placed
    · exact ⟨batched, monitor, move.stops staged.drain stops⟩
    · exact absurd rests busy

theorem Staged.step (staged : Staged watch) (waits : action.givesUp = false)
    (taken : watch.step action = some (after, shown)) : Staged after := by
  obtain ⟨-, move⟩ := step_move taken
  cases move with
  | advances advanced => exact staged.advance advanced
  | @turns actor signal monitor events returns turned =>
      have turned := staged.turn waits turned
      obtain ⟨fault, noticed⟩ := notice_eq { watch with monitor } events
      rw [noticed]
      exact turned.kept rfl rfl rfl turned.drain rfl rfl
  | steers steered => exact staged.steer steered
  | works returns worked =>
      obtain ⟨_, _, _, -, -, same⟩ := Drain.work_move worked
      exact staged.kept rfl rfl rfl (staged.drain.step worked) (by rw [same])
        (by rw [Drain.isRunning, same]; rfl)
  | queues batched next pushed =>
      have coherent := staged.drain.step pushed
      simp only [Drain.step, Option.some.injEq, Prod.mk.injEq] at pushed
      obtain ⟨same, -⟩ := pushed
      exact staged.kept rfl rfl rfl coherent (by rw [← same]) (by rw [Drain.isRunning, ← same]; rfl)
  | passes | writes => exact staged.kept rfl rfl rfl staged.drain rfl rfl

theorem ofPlan_eq {surroundings : Program.Surroundings} {plan : Program.Plan}
    (opened : ofPlan surroundings plan = .ok watch) :
    ∃ fresh, Monitor.create surroundings.view surroundings.workingDirectory plan.path
        plan.settings.poll = .ok fresh ∧
      watch = {
        plan
        monitor := { fresh with
          activities := Monitor.builtIns 0
          serials := Recognizer.all.length
          listeners := [writer] } } := by
  unfold ofPlan at opened
  cases created : Monitor.create surroundings.view surroundings.workingDirectory plan.path
      plan.settings.poll with
  | error fault =>
      rw [created] at opened
      cases opened
  | ok fresh =>
      rw [created] at opened
      cases opened
      exact ⟨fresh, rfl, rfl⟩

theorem Staged.ofPlan {surroundings : Program.Surroundings} {plan : Program.Plan}
    (opened : Watch.ofPlan surroundings plan = .ok watch) : Staged watch := by
  obtain ⟨fresh, created, rfl⟩ := ofPlan_eq opened
  have rests : Monitor.Run fresh [] fresh := .rest fresh
  have coherent : fresh.Coherent := Monitor.Coherent.run created rests
  have edited : fresh.Move { fresh with
      activities := Monitor.builtIns 0
      serials := Recognizer.all.length
      listeners := [writer] } [] := .edits _ _ _ fresh.delay
  refine ⟨coherent.move edited, ?_, Drain.coherent_fresh _, ?_⟩
  · rw [Monitor.create_eq created]
    intro index poller here
    simp at here
  · rw [Monitor.create_eq created]
    exact ⟨⟨rfl, rfl⟩, rfl, rfl⟩

theorem PatientRun.staged {first last : Watch} (run : PatientRun first shown last)
    (staged : Staged first) : Staged last := by
  induction run with
  | rest => exact staged
  | step action run waits taken ih => exact ih.step waits taken

def steps (watch : Watch) : List Action → Option (Watch × List Event)
  | [] => some (watch, [])
  | action :: rest =>
      match watch.step action with
      | none => none
      | some (next, shown) => (next.steps rest).map fun (last, more) => (last, shown ++ more)

theorem PatientRun.steps {first middle last : Watch} {more : List Event}
    (run : PatientRun first shown middle) (actions : List Action)
    (waits : actions.all fun action => !action.givesUp)
    (taken : middle.steps actions = some (last, more)) : PatientRun first (shown ++ more) last := by
  induction actions generalizing middle shown more with
  | nil =>
      simp only [Watch.steps, Option.some.injEq, Prod.mk.injEq] at taken
      obtain ⟨rfl, rfl⟩ := taken
      simpa using run
  | cons action rest ih =>
      simp only [List.all_cons, Bool.and_eq_true, Bool.not_eq_true'] at waits
      simp only [Watch.steps] at taken
      split at taken
      · simp at taken
      · rename_i next first taking
        simp only [Option.map_eq_some_iff, Prod.mk.injEq, Prod.exists] at taken
        obtain ⟨_, later, goes, rfl, rfl⟩ := taken
        have further := run.step action waits.1 taking
        simpa using ih further waits.2 goes

end FolderWatch.Watch
