import FolderWatch.Proofs.Monitor.Isolation

/-!
However the steps of its cycles are mixed, a monitor that keeps its directory goes through one whole
cycle after another. Each compares what it captured with what the last one to publish left. One that
finds at its check that it may publish does so before any other cycle begins; one that may not calls
nobody and leaves everything to the next.
-/

namespace FolderWatch.Monitor

/-- What a cycle compares: the directory as it saw it with the baseline it found. -/
inductive StartsFrom (mode : FirstScan) (directory : Path) (view : DirectoryView) :
    Option Snapshot → Comparison → Prop
  | baseline {before after : Snapshot} (captured : Snapshot.capture view directory = .ok after) :
      StartsFrom mode directory view (some before) ⟨directory, before, after⟩
  | nothing {after : Snapshot} (reports : mode = .reportExisting)
      (captured : Snapshot.capture view directory = .ok after) :
      StartsFrom mode directory view none ⟨directory, .empty directory, after⟩

/-- What one whole cycle shows, by its account and the baseline it found. -/
inductive WholeCycle (mode : FirstScan) (directory : Path) (actor : Actor) (account : Account)
    (found : Option Snapshot) : List Event → Prop
  | failed {view : DirectoryView} {fault : Fault} (saw : account.view = some view)
      (failed : Snapshot.capture view directory = .error fault) :
      WholeCycle mode directory actor account found [.entered actor, .left actor (.error fault)]
  | adopted {view : DirectoryView} {after : Snapshot} (saw : account.view = some view)
      (captured : Snapshot.capture view directory = .ok after) (nothing : found = none)
      (adopts : mode = .baseline) (current : account.current = some true) :
      WholeCycle mode directory actor account found
        [.entered actor, .recalled actor none, .published actor after, .left actor (.ok 0)]
  | unadopted {view : DirectoryView} {after : Snapshot} (saw : account.view = some view)
      (captured : Snapshot.capture view directory = .ok after) (nothing : found = none)
      (adopts : mode = .baseline) (outdated : account.current = some false) :
      WholeCycle mode directory actor account found
        [.entered actor, .recalled actor none, .dropped actor, .left actor (.ok 0)]
  | dispatched {view : DirectoryView} {comparison : Comparison} {reports : List Report}
      (saw : account.view = some view) (starts : StartsFrom mode directory view found comparison)
      (asked : account.asked.map Prod.fst = account.activities)
      (reported : reports = reportsOf comparison account.asked)
      (current : account.current = some true) :
      WholeCycle mode directory actor account found
        (.entered actor :: .recalled actor found ::
          ((account.activities.map fun activity => .consulted actor activity comparison) ++
            .decided actor comparison reports ::
              ((reports.flatMap fun report =>
                  account.subscribers.map fun subscriber => .called actor ⟨subscriber, report⟩) ++
                [.published actor comparison.after,
                  .left actor (.ok (reports.flatMap Report.changes).length)])))
  | dropped {view : DirectoryView} {comparison : Comparison} (saw : account.view = some view)
      (starts : StartsFrom mode directory view found comparison)
      (asked : account.asked.map Prod.fst = account.activities)
      (outdated : account.current = some false) :
      WholeCycle mode directory actor account found
        (.entered actor :: .recalled actor found ::
          ((account.activities.map fun activity => .consulted actor activity comparison) ++
            [.dropped actor, .left actor (.ok 0)]))

/-- A run made of whole cycles and of steps between them. Each cycle has its account kept from before
its entry to its end, and finds the baseline that those before it published. -/
inductive Serial (mode : FirstScan) (directory : Path) (fresh : Monitor) :
    List Event → Monitor → Prop
  | rest : Serial mode directory fresh [] fresh
  | between {shown more : List Event} {middle last : Monitor} {action : Action}
      (earlier : Serial mode directory fresh shown middle)
      (taken : middle.step action = some (last, more)) (quiet : marks more = []) :
      Serial mode directory fresh (shown ++ more) last
  | cycle {settled shown more : List Event} {middle ending last : Monitor} {actor : Actor}
      {account : Account} (earlier : Serial mode directory fresh settled middle)
      (waits : middle.cycleOf actor = some .waiting)
      (run : CycleRun middle actor account shown ending)
      (leaves : ending.step (.go actor .proceed) = some (last, more))
      (whole : WholeCycle mode directory actor account (standing (marks settled))
        (marks (shown ++ more))) :
      Serial mode directory fresh (settled ++ (shown ++ more)) last

/-- What a cycle has shown when it is in a phase. From its comparison on its account settles that. -/
inductive Underway (mode : FirstScan) (directory : Path) (actor : Actor)
    (found : Option Snapshot) : Account → CyclePhase → List Event → Prop
  | entered : Underway mode directory actor found {} .entered [.entered actor]
  | located : Underway mode directory actor found {} (.located directory) [.entered actor]
  | failed {view : DirectoryView} {fault : Fault}
      (failed : Snapshot.capture view directory = .error fault) :
      Underway mode directory actor found { view := some view } (.leaving (.error fault))
        [.entered actor]
  | captured {view : DirectoryView} {after : Snapshot}
      (captured : Snapshot.capture view directory = .ok after) :
      Underway mode directory actor found { view := some view } (.captured directory after)
        [.entered actor]
  | adopting {view : DirectoryView} {after : Snapshot}
      (captured : Snapshot.capture view directory = .ok after) (nothing : found = none)
      (adopts : mode = .baseline) :
      Underway mode directory actor found { view := some view } (.adopting directory after)
        [.entered actor, .recalled actor none]
  | unadopted {view : DirectoryView} {after : Snapshot}
      (captured : Snapshot.capture view directory = .ok after) (nothing : found = none)
      (adopts : mode = .baseline) :
      Underway mode directory actor found { view := some view, current := some false }
        (.leaving (.ok 0)) [.entered actor, .recalled actor none, .dropped actor]
  | storing {view : DirectoryView} {after : Snapshot}
      (captured : Snapshot.capture view directory = .ok after) (nothing : found = none)
      (adopts : mode = .baseline) :
      Underway mode directory actor found { view := some view, current := some true }
        (.storing after 0) [.entered actor, .recalled actor none]
  | adopted {view : DirectoryView} {after : Snapshot}
      (captured : Snapshot.capture view directory = .ok after) (nothing : found = none)
      (adopts : mode = .baseline) :
      Underway mode directory actor found { view := some view, current := some true }
        (.leaving (.ok 0)) [.entered actor, .recalled actor none, .published actor after]
  | reached {view : DirectoryView} {comparison : Comparison} {account : Account}
      {shown : List Event} {phase : CyclePhase}
      (starts : StartsFrom mode directory view found comparison)
      (reached : Reached actor comparison (some view) account shown phase) :
      Underway mode directory actor found account phase
        (.entered actor :: .recalled actor found :: shown)

variable {mode : FirstScan} {directory : Path} {actor : Actor} {found : Option Snapshot}
  {account : Account} {phase : CyclePhase} {monitor after : Monitor} {action : Action}
  {past shown : List Event}

theorem Underway.isInside (underway : Underway mode directory actor found account phase shown) :
    phase.isInside = true := by
  cases underway with
  | reached _ reached => exact reached.isInside
  | _ => rfl

theorem Underway.step {signal : Signal} {step : CycleStep}
    (sameDirectory : monitor.directory = directory) (sameMode : monitor.firstScan = mode)
    (baseline : monitor.baseline = shown.foldl Event.baselineAfter found)
    (underway : Underway mode directory actor found account phase shown)
    (goes : monitor.stepCycle actor phase signal = some step) :
    Underway mode directory actor found (account.after monitor actor phase signal) step.phase
      (shown ++ marks step.shown) := by
  subst sameDirectory sameMode
  cases underway with
  | entered =>
      cases signal <;> cases goes
      exact .located
  | located =>
      cases signal with
      | saw view =>
          simp only [stepCycle] at goes
          split at goes <;> cases goes
          · rename_i failed
            simpa [Account.after] using Underway.failed failed
          · rename_i captured
            simpa [Account.after] using Underway.captured captured
      | _ => cases goes
  | @captured view snapshot captured =>
      cases signal <;> cases goes
      have recalled : monitor.baseline = found := baseline
      rw [recalled]
      cases found with
      | some before => exact .reached (.baseline captured) .comparing
      | none =>
          cases first : monitor.firstScan with
          | baseline => exact .adopting captured rfl rfl
          | reportExisting => exact .reached (.nothing rfl captured) .comparing
  | adopting captured nothing adopts =>
      cases signal with
      | proceed =>
          simp only [stepCycle, isCurrent_iff] at goes
          split at goes <;> cases goes
          · rename_i current
            have underway : Underway _ _ actor found _ _ _ := .storing captured nothing adopts
            simpa [Account.after, current, marks, Event.isMark] using underway
          · rename_i outdated
            have underway : Underway _ _ actor found _ _ _ := .unadopted captured nothing adopts
            simpa [Account.after, outdated, marks, List.filter_cons, Event.isMark] using underway
      | _ => cases goes
  | storing captured nothing adopts =>
      cases signal <;> cases goes
      exact .adopted captured nothing adopts
  | failed | unadopted | adopted => cases signal <;> cases goes
  | reached starts reached => exact .reached starts (reached.step goes)

/-- All deliveries, spelled out as the calls that they are. -/
theorem calls_of_all {told : List (Delivery × Verdict)} {reports : List Report}
    {subscribers : List Subscriber} (all : told.map Prod.fst = deliveries reports subscribers) :
    calls actor told = reports.flatMap fun report =>
      subscribers.map fun subscriber => .called actor ⟨subscriber, report⟩ := by
  simp [calls, all, deliveries, List.map_flatMap, Function.comp_def]

theorem Underway.whole {result : Except Fault Nat}
    (underway : Underway mode directory actor found account (.leaving result) shown) :
    WholeCycle mode directory actor account found (shown ++ [.left actor result]) := by
  cases underway with
  | failed failed => exact .failed rfl failed
  | unadopted captured nothing adopts => exact .unadopted rfl captured nothing adopts rfl
  | adopted captured nothing adopts => exact .adopted rfl captured nothing adopts rfl
  | @reached view comparison _ _ _ starts reached =>
      cases reached with
      | dropped subscribers asked =>
          have whole : WholeCycle mode directory actor
              { view := some view, activities := asked.map Prod.fst, subscribers, asked,
                current := some false } found _ := .dropped rfl starts rfl rfl
          simpa [consultations] using whole
      | @published subscribers asked told all =>
          have whole : WholeCycle mode directory actor
              { view := some view, activities := asked.map Prod.fst, subscribers, asked,
                current := some true, told } found _ := .dispatched rfl starts rfl rfl rfl
          rw [calls_of_all all]
          simpa [decision, consultations, produced] using whole

section Steps

/-- While a cycle is inside, nobody else leaves a mark. -/
theorem aside_quiet (exclusive : monitor.Exclusive) (steady : monitor.control.isRedirect = false)
    (here : monitor.cycleOf actor = some phase) (inside : phase.isInside = true)
    (others : ∀ signal, action ≠ .go actor signal)
    (taken : monitor.step action = some (after, shown)) : marks shown = [] := by
  have elsewhere := (aside_step here others taken).2
  have only {other : Actor} (otherInside : monitor.Inside other) : other = actor :=
    exclusive other actor otherInside ⟨phase, here, inside⟩
  cases (step_move taken).passage with
  | @cycles other otherPhase step otherHere move =>
      rcases move.inside.1 with otherInside | idle
      · cases only ⟨otherPhase, otherHere, otherInside⟩
        apply List.filter_eq_nil_iff.mpr
        intro event member
        exact absurd (move.shownBy event member) (elsewhere event member)
      · simp [isCycling_iff.mpr ⟨actor, phase, here, inside⟩] at idle
  | ends otherHere =>
      cases only ⟨_, otherHere, rfl⟩
      exact absurd rfl (elsewhere _ List.mem_cons_self)
  | begins => rfl
  | rests _ quiet => exact quiet
  | redirects control | rebases control => simp [control, Control.isRedirect] at steady

/-- Where nobody is inside, all that can leave a mark is that a cycle enters. -/
theorem idle_step (idle : ∀ actor, ¬monitor.Inside actor)
    (steady : monitor.control.isRedirect = false)
    (taken : monitor.step action = some (after, shown)) :
    (marks shown = [] ∧ ∀ actor, ¬after.Inside actor) ∨
      ∃ actor signal, action = .go actor signal ∧ monitor.cycleOf actor = some .waiting := by
  cases (step_move taken).passage with
  | @cycles actor phase step here move =>
      right
      cases move with
      | enters =>
          by_cases own : ∃ signal, action = .go actor signal
          · obtain ⟨signal, rfl⟩ := own
            exact ⟨actor, signal, rfl, here⟩
          · have others (signal : Signal) (same : action = .go actor signal) : False :=
              own ⟨signal, same⟩
            exact absurd rfl ((aside_step here others taken).2 _ List.mem_cons_self)
      | _ => exact absurd ⟨_, here, rfl⟩ (idle actor)
  | begins _ _ there =>
      refine .inl ⟨rfl, fun other inside => idle other ?_⟩
      exact (inside.elsewhere there (by simp [CyclePhase.isInside])).2
  | @ends actor result rest here => exact absurd ⟨_, here, rfl⟩ (idle actor)
  | rests there quiet => exact .inl ⟨quiet, fun other => by simpa only [Inside, there] using idle other⟩
  | redirects control | rebases control => simp [control, Control.isRedirect] at steady

/-- A cycle can always leave once it has nothing else to do, and is in no cycle then. -/
theorem exists_leave {result : Except Fault Nat}
    (here : monitor.cycleOf actor = some (.leaving result)) :
    ∃ after shown, monitor.step (.go actor .proceed) = some (after, shown) := by
  cases actor with
  | caller => simp [step, stepControl, scanning_of_cycleOf here]
  | poller index =>
      obtain ⟨poller, found, cycling⟩ := cycling_of_cycleOf here
      simp [step, found, stepPoller, cycling]

theorem leave_step {result : Except Fault Nat} {signal : Signal}
    (here : monitor.cycleOf actor = some (.leaving result))
    (taken : monitor.step (.go actor signal) = some (after, shown)) :
    signal = .proceed ∧ marks shown = [.left actor result] ∧
      ∀ other, after.cycleOf other = if other = actor then none else monitor.cycleOf other := by
  cases actor with
  | caller =>
      have control := scanning_of_cycleOf here
      cases signal with
      | proceed =>
          simp only [step, stepControl, control, finish, Option.some.injEq, Prod.mk.injEq] at taken
          obtain ⟨rfl, rfl⟩ := taken
          refine ⟨rfl, rfl, fun other => ?_⟩
          cases other <;> simp [cycleOf, Control.cycle?]
      | _ => simp [step, stepControl, control, stepCycle] at taken
  | poller index =>
      obtain ⟨poller, found, cycling⟩ := cycling_of_cycleOf here
      cases signal with
      | proceed =>
          simp only [step, found, stepPoller, cycling, Option.bind_eq_bind, Option.bind_some,
            Option.some.injEq, Prod.mk.injEq] at taken
          obtain ⟨rfl, rfl⟩ := taken
          exact ⟨rfl, by cases result <;> rfl, cycleOf_setPoller found .resting⟩
      | _ => simp [step, found, stepPoller, cycling, stepCycle] at taken

theorem directory_step (steady : monitor.control.isRedirect = false)
    (taken : monitor.step action = some (after, shown)) : after.directory = monitor.directory := by
  cases (step_move taken).passage with
  | cycles _ _ _ _ same | begins _ _ _ _ same | ends _ _ _ _ same | rests _ _ _ same => exact same
  | redirects control | rebases control => simp [control, Control.isRedirect] at steady

end Steps

/-- A run of whole cycles, and after them perhaps one that is under way. -/
inductive Course (mode : FirstScan) (directory : Path) (fresh : Monitor) :
    List Event → Monitor → Prop
  | between {past : List Event} {monitor : Monitor}
      (serial : Serial mode directory fresh past monitor)
      (idle : ∀ actor, ¬monitor.Inside actor) : Course mode directory fresh past monitor
  | within {settled shown : List Event} {middle monitor : Monitor} {actor : Actor}
      {account : Account} {phase : CyclePhase}
      (earlier : Serial mode directory fresh settled middle)
      (waits : middle.cycleOf actor = some .waiting)
      (run : CycleRun middle actor account shown monitor)
      (here : monitor.cycleOf actor = some phase)
      (underway : Underway mode directory actor (standing (marks settled)) account phase
        (marks shown)) : Course mode directory fresh (settled ++ shown) monitor

structure Chained (mode : FirstScan) (directory : Path) (fresh : Monitor) (past : List Event)
    (monitor : Monitor) : Prop where
  steady : monitor.control.isRedirect = false
  sameDirectory : monitor.directory = directory
  sameMode : monitor.firstScan = mode
  exclusive : monitor.Exclusive
  baseline : monitor.baseline = standing (marks past)
  course : Course mode directory fresh past monitor

variable {fresh : Monitor}

/-- A cycle enters, and its account begins. -/
theorem Course.enter {signal : Signal} (serial : Serial mode directory fresh past monitor)
    (waits : monitor.cycleOf actor = some .waiting)
    (taken : monitor.step (.go actor signal) = some (after, shown)) :
    Course mode directory fresh (past ++ shown) after := by
  have unfinished : ∀ result, CyclePhase.waiting ≠ .leaving result := by simp
  have run := CycleRun.rest.goesOn waits unfinished taken
  obtain ⟨step, goes, rfl, rfl⟩ := exists_stepCycle waits unfinished taken
  have there := cycleOf_go waits step
  cases signal with
  | proceed =>
      simp only [stepCycle] at goes
      split at goes <;> cases goes
      exact .within serial waits run there .entered
  | _ => cases goes

theorem Course.leave {settled : List Event} {middle : Monitor} {signal : Signal}
    {result : Except Fault Nat} (exclusive : monitor.Exclusive)
    (earlier : Serial mode directory fresh settled middle)
    (waits : middle.cycleOf actor = some .waiting) (run : CycleRun middle actor account past monitor)
    (here : monitor.cycleOf actor = some (.leaving result))
    (underway : Underway mode directory actor (standing (marks settled)) account
      (.leaving result) (marks past))
    (taken : monitor.step (.go actor signal) = some (after, shown)) :
    Course mode directory fresh (settled ++ (past ++ shown)) after := by
  obtain ⟨rfl, left, there⟩ := leave_step here taken
  have whole := underway.whole
  rw [← left, ← marks_append] at whole
  refine .between (earlier.cycle waits run taken whole) fun other inside => ?_
  obtain ⟨different, was⟩ := inside.elsewhere there (by simp)
  exact different (exclusive other actor was ⟨_, here, rfl⟩)

theorem Course.goOn {settled : List Event} {middle : Monitor} {signal : Signal}
    (sameDirectory : monitor.directory = directory) (sameMode : monitor.firstScan = mode)
    (baseline : monitor.baseline = standing (marks (settled ++ past)))
    (earlier : Serial mode directory fresh settled middle)
    (waits : middle.cycleOf actor = some .waiting) (run : CycleRun middle actor account past monitor)
    (here : monitor.cycleOf actor = some phase) (unfinished : ∀ result, phase ≠ .leaving result)
    (underway : Underway mode directory actor (standing (marks settled)) account phase (marks past))
    (taken : monitor.step (.go actor signal) = some (after, shown)) :
    Course mode directory fresh (settled ++ (past ++ shown)) after := by
  have goesOn := run.goesOn here unfinished taken
  obtain ⟨step, goes, rfl, rfl⟩ := exists_stepCycle here unfinished taken
  have found : monitor.baseline =
      (marks past).foldl Event.baselineAfter (standing (marks settled)) := by
    rw [baseline, marks_append, standing, List.foldl_append]
    rfl
  have further := underway.step sameDirectory sameMode found goes
  rw [← marks_append] at further
  exact .within earlier waits goesOn (cycleOf_go here step) further

theorem Chained.step (chained : Chained mode directory fresh past monitor)
    (keeps : ∀ target, action ≠ .call (.setDirectory target))
    (taken : monitor.step action = some (after, shown)) :
    Chained mode directory fresh (past ++ shown) after := by
  obtain ⟨steady, sameDirectory, sameMode, exclusive, baseline, course⟩ := chained
  have passage := (step_move taken).passage
  refine ⟨isRedirect_step taken keeps steady, (directory_step steady taken).trans sameDirectory,
    (firstScan_move (step_move taken)).trans sameMode, exclusive.passage passage, ?_, ?_⟩
  · rw [marks_append]
    exact standing_append passage baseline
  cases course with
  | between serial idle =>
      rcases idle_step idle steady taken with ⟨quiet, still⟩ | ⟨actor, signal, rfl, waits⟩
      · exact .between (serial.between taken quiet) still
      · exact .enter serial waits taken
  | @within settled showing middle _ actor account phase earlier waits run here underway =>
      rw [List.append_assoc]
      by_cases own : ∃ signal, action = .go actor signal
      · obtain ⟨signal, rfl⟩ := own
        by_cases leaving : ∃ result, phase = .leaving result
        · obtain ⟨result, rfl⟩ := leaving
          exact .leave exclusive earlier waits run here underway taken
        · have unfinished (result : Except Fault Nat) (same : phase = .leaving result) : False :=
            leaving ⟨result, same⟩
          exact .goOn sameDirectory sameMode baseline earlier waits run here unfinished underway taken
      · have others (signal : Signal) (same : action = .go actor signal) : False :=
          own ⟨signal, same⟩
        have quiet := aside_quiet exclusive steady here underway.isInside others taken
        refine .within earlier waits (run.aside others taken) (aside_step here others taken).1 ?_
        rwa [marks_append, quiet, List.append_nil]

theorem Chained.run {view : DirectoryView} {workingDirectory path : Path} {settings : PollSettings}
    {last : Monitor} (created : create view workingDirectory path settings = .ok fresh)
    (run : RunOf (fun _ action => ∀ target, action ≠ .call (.setDirectory target)) fresh shown last) :
    Chained settings.firstScan fresh.directory fresh shown last := by
  have outside (actor : Actor) : ¬fresh.Inside actor := by
    rintro ⟨phase, here, -⟩
    simp [cycleOf_create created] at here
  induction run with
  | rest =>
      refine ⟨?_, rfl, ?_, fun first _ inside => absurd inside (outside first), ?_,
        .between .rest outside⟩
      · simp [create_eq created, Control.isRedirect]
      · rw [create_eq created]
      · rw [create_eq created]
        rfl
  | step action _ keeps taken ih => exact ih.step keeps taken

/-- Whoever is inside can go on alone and leave. -/
theorem exists_left (exclusive : monitor.Exclusive) (inside : monitor.Inside actor) :
    ∃ rest final, RunBy actor monitor rest final ∧ ∀ other, ¬final.Inside other := by
  obtain ⟨phase, here, isInside⟩ := inside
  obtain ⟨-, more, ending, result, -, alone, leaving, -⟩ :=
    CycleRun.rest.canEnd here isInside (fun _ => none) (fun _ => .accepted)
  obtain ⟨final, last, taken⟩ := exists_leave leaving
  have exclusiveThen : ending.Exclusive :=
    alone.invariant exclusive fun _ exclusive taken => exclusive.passage (step_move taken).passage
  refine ⟨_, final, alone.step _ ⟨.proceed, rfl⟩ taken, fun other inside => ?_⟩
  obtain ⟨-, -, there⟩ := leave_step leaving taken
  obtain ⟨different, was⟩ := inside.elsewhere there (by simp)
  exact different (exclusiveThen other actor was ⟨_, leaving, rfl⟩)

/-- A run is a row of whole cycles, or becomes one once the cycle that is inside has gone on to its
end, which it can do alone. So each cycle that reports starts from what the last one to publish left
and publishes before any other cycle begins, and what one found that came too late is for the next. -/
theorem cycles_serial {view : DirectoryView} {workingDirectory path : Path}
    {settings : PollSettings} {fresh last : Monitor} {shown : List Event}
    (created : create view workingDirectory path settings = .ok fresh)
    (run : RunOf (fun _ action => ∀ target, action ≠ .call (.setDirectory target)) fresh shown last) :
    last.baseline = standing (marks shown) ∧
      ((∀ actor, ¬last.Inside actor) →
        Serial settings.firstScan fresh.directory fresh shown last) ∧
      ∀ actor, last.Inside actor → ∃ rest final, RunBy actor last rest final ∧
        (∀ other, ¬final.Inside other) ∧
        Serial settings.firstScan fresh.directory fresh (shown ++ rest) final := by
  have idle {shown : List Event} {last : Monitor}
      (run : RunOf (fun _ action => ∀ target, action ≠ .call (.setDirectory target)) fresh shown last)
      (outside : ∀ actor, ¬last.Inside actor) :
      Serial settings.firstScan fresh.directory fresh shown last := by
    cases (Chained.run created run).course with
    | between serial => exact serial
    | within _ _ _ here underway => exact absurd ⟨_, here, underway.isInside⟩ (outside _)
  refine ⟨(Chained.run created run).baseline, idle run, fun actor inside => ?_⟩
  obtain ⟨rest, final, alone, left⟩ := exists_left (Chained.run created run).exclusive inside
  refine ⟨rest, final, alone, left, idle (run.trans (alone.mono ?_)) left⟩
  rintro _ _ ⟨signal, rfl⟩ target
  simp

def keepsDirectory (_ : Monitor) : Action → Bool
  | .call (.setDirectory _) => false
  | _ => true

/-- A directory of files of one byte each. -/
def holding (names : List UInt8) : DirectoryView where
  list _ := .ok (names.map fun name => .entry [name])
  lookup path := if path = ⟨[]⟩ then .ok .directory else .ok (.file 1 (.ofNanos 0))

def reader : Subscriber := ⟨.held "reader"⟩

def startOnce : List Action :=
  [.call .start, .go .caller (.saw bareView)] ++ List.replicate 4 (.go .caller .proceed)

/-- A stop that does not wait for its poller. -/
def stopAtOnce : List Action :=
  [.call .stop] ++ List.replicate 3 (.go .caller .proceed) ++
    [.go .caller .leave, .go .caller .proceed]

def enterAndCapture (index : Nat) (names : List UInt8) : List Action :=
  List.replicate 2 (.go (.poller index) .proceed) ++ [.go (.poller index) (.saw (holding names))]

/-- From the capture past three recognizers to the check. -/
def recognize (index : Nat) : List Action :=
  List.replicate 3 (.go (.poller index) .proceed) ++
    (List.replicate 3
      [.go (.poller index) .proceed, .go (.poller index) (.recognized none)]).flatten ++
    [.go (.poller index) .proceed]

/-- One report is handed over, the capture published and the cycle left. -/
def handOver (index : Nat) : List Action :=
  [.go (.poller index) .proceed, .go (.poller index) (.handled .accepted)] ++
    List.replicate 3 (.go (.poller index) .proceed)

/-- A stop leaves a poller alone that has seen a new file. The next poller reports that file, and in
its second cycle another one. -/
def leftAlone : List Action :=
  [.addBuiltIns, .addListener reader] ++ startOnce ++ [.go (.poller 0) .proceed] ++
    enterAndCapture 0 [97] ++ stopAtOnce ++ startOnce ++ [.go (.poller 1) .proceed] ++
    recognize 0 ++ [.go (.poller 0) .proceed] ++
    enterAndCapture 1 [97] ++ recognize 1 ++ handOver 1 ++
    List.replicate 2 (.go (.poller 1) .proceed) ++
    enterAndCapture 1 [97, 98] ++ recognize 1 ++ handOver 1

def createdFile (name : UInt8) : Change := .created ⟨⟨[name]⟩, 1, 0⟩

def Event.drops (actor : Actor) : Event → Bool
  | .dropped other => other = actor
  | _ => false

theorem cycles_serial_left_alone :
    ∃ (last : Monitor) (shown : List Event),
      create bareView ⟨[]⟩ ⟨[]⟩ { firstScan := .reportExisting } = .ok freshMonitor ∧
      RunOf (fun _ action => ∀ target, action ≠ .call (.setDirectory target)) freshMonitor shown
        last ∧
      (∀ actor, ¬last.Inside actor) ∧ shown.any (Event.drops (.poller 0)) = true ∧
      handedTo (.poller 0) reader shown = [] ∧
      handedTo (.poller 1) reader shown =
        [⟨"created", [createdFile 97]⟩, ⟨"created", [createdFile 98]⟩] ∧
      Serial .reportExisting freshMonitor.directory freshMonitor shown last := by
  have sound (monitor : Monitor) (action : Action) (keeps : keepsDirectory monitor action = true) :
      ∀ target, action ≠ .call (.setDirectory target) := by
    rintro target rfl
    simp [keepsDirectory] at keeps
  obtain ⟨last, shown, run, checked⟩ := exists_run freshMonitor leftAlone keepsDirectory sound
    (fun last shown => decide (last.isCycling = false ∧
      shown.any (Event.drops (.poller 0)) = true ∧ handedTo (.poller 0) reader shown = [] ∧
      handedTo (.poller 1) reader shown =
        [⟨"created", [createdFile 97]⟩, ⟨"created", [createdFile 98]⟩]))
    (by decide +kernel)
  obtain ⟨outside, drops, none, handed⟩ := of_decide_eq_true checked
  have idle (actor : Actor) (inside : last.Inside actor) : False := by
    simp [isCycling_iff.mpr ⟨actor, inside⟩] at outside
  exact ⟨last, shown, create_freshMonitor, run, idle, drops, none, handed,
    (cycles_serial create_freshMonitor run).2.1 idle⟩

end FolderWatch.Monitor
