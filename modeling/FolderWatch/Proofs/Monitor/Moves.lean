import FolderWatch.Monitor

/-!
What the single steps of a monitor do. A step belongs to a cycle, to a poller between its cycles, to
the caller, or only edits what the next cycle will work with.
-/

namespace FolderWatch

namespace PollerPhase

def cycle? : PollerPhase → Option CyclePhase
  | cycling phase => some phase
  | _ => none

end PollerPhase

namespace Monitor

def Control.cycle? : Control → Option CyclePhase
  | scanning phase => some phase
  | _ => none

def cycleOf (monitor : Monitor) : Actor → Option CyclePhase
  | .caller => monitor.control.cycle?
  | .poller index => monitor.pollers[index]?.bind fun poller => poller.phase.cycle?

def setCycle (monitor : Monitor) (actor : Actor) (phase : CyclePhase) : Monitor :=
  match actor with
  | .caller => { monitor with control := .scanning phase }
  | .poller index =>
      { monitor with
        pollers := monitor.pollers.modify index fun poller =>
          { poller with phase := .cycling phase } }

def Event.isMark : Event → Bool
  | .logged .. => false
  | .returned (.setDirectory _) (.ok _) => true
  | .returned .. => false
  | _ => true

/-- A trace without its log lines and, but for changes of the directory, the ends of operations. -/
def marks (shown : List Event) : List Event := shown.filter Event.isMark

/-- The operation that ended, and how. -/
def Event.result? : Event → Option (Operation × Except Fault Nat)
  | .returned operation result => some (operation, result)
  | _ => none

theorem create_eq {view : DirectoryView} {workingDirectory path : Path} {settings : PollSettings}
    {fresh : Monitor} (created : create view workingDirectory path settings = .ok fresh) :
    fresh = {
      workingDirectory
      directory := workingDirectory.join path
      delay := max settings.delay 1
      firstScan := settings.firstScan
      stopTimeout := settings.stopTimeoutSpan } := by
  simp only [create] at created
  split at created <;> cases created
  rfl

theorem cycleOf_create {view : DirectoryView} {workingDirectory path : Path}
    {settings : PollSettings} {fresh : Monitor}
    (created : create view workingDirectory path settings = .ok fresh) (actor : Actor) :
    fresh.cycleOf actor = none := by
  rw [create_eq created]
  cases actor <;> rfl

theorem scanning_of_cycleOf {monitor : Monitor} {phase : CyclePhase}
    (here : monitor.cycleOf .caller = some phase) : monitor.control = .scanning phase := by
  simp only [cycleOf, Control.cycle?] at here
  split at here
  · rename_i control
    cases here
    exact control
  · simp at here

theorem cycling_of_cycleOf {monitor : Monitor} {index : Nat} {phase : CyclePhase}
    (here : monitor.cycleOf (.poller index) = some phase) :
    ∃ poller, monitor.pollers[index]? = some poller ∧ poller.phase = .cycling phase := by
  simp only [cycleOf, Option.bind_eq_some_iff, PollerPhase.cycle?] at here
  obtain ⟨poller, found, here⟩ := here
  split at here
  · rename_i cycling
    cases here
    exact ⟨poller, found, cycling⟩
  · simp at here

theorem publish_eq (monitor : Monitor) (step : CycleStep) :
    monitor.publish step = { monitor with baseline := step.publishes.or monitor.baseline } := by
  unfold publish
  split <;> simp_all

/-- What a poller does between two cycles, and what it shows of it. -/
inductive PollerTurn (monitor : Monitor) (index : Nat) (closed : Bool) :
    PollerPhase → PollerPhase → List Event → Prop
  | begins (free : closed = false) :
      PollerTurn monitor index closed .checking (.cycling .waiting) []
  | heeds {phase : PollerPhase} (between : phase = .checking ∨ phase = .resting)
      (told : closed = true) :
      PollerTurn monitor index closed phase .exited [.logged (.poller index) monitor.exitLine]
  | ends (result : Except Fault Nat) :
      PollerTurn monitor index closed (.cycling (.leaving result)) .resting
        (.left (.poller index) result :: match result with
          | .error fault => [.logged (.poller index) (scanSkipped fault)]
          | .ok _ => [])
  | wakes : PollerTurn monitor index closed .resting .checking []

inductive CallerMove (monitor : Monitor) : Monitor → List Event → Prop
  | refused {operation : Operation} {result : Except Fault Nat} (free : monitor.control = .free)
      (unchanged : operation = .drop ∨ ∃ fault, result = .error fault) :
      CallerMove monitor monitor [.returned operation result]
  | startCalled (free : monitor.control = .free) (can : monitor.lifecycle.can .start = true) :
      CallerMove monitor { monitor with control := .starting } []
  | stopCalled (free : monitor.control = .free)
      (runs : monitor.lifecycle.can .stop = true ∨ monitor.isRunning = true) :
      CallerMove monitor { monitor with control := .stopping } []
  | redirectCalled {target : Path} (free : monitor.control = .free)
      (stopped : monitor.isRunning = false) :
      CallerMove monitor { monitor with control := .redirecting target } []
  | scanCalled (free : monitor.control = .free) (stopped : monitor.isRunning = false) :
      CallerMove monitor { monitor with control := .scanning .waiting } []
  | startUnusable {view : DirectoryView} {fault : Fault} (control : monitor.control = .starting)
      (unusable : view.checkDirectory monitor.directory = .error fault) :
      CallerMove monitor { monitor with control := .free } [.returned .start (.error fault)]
  | startChecked {view : DirectoryView} (control : monitor.control = .starting)
      (usable : view.checkDirectory monitor.directory = .ok ()) :
      CallerMove monitor { monitor with control := .startable } []
  | numbered (control : monitor.control = .startable) :
      CallerMove monitor { monitor with
        generation := monitor.generation + 1
        control := .numbered (monitor.generation + 1) } []
  | spawned {generation : Nat} (control : monitor.control = .numbered generation) :
      CallerMove monitor { monitor with
        pollers := monitor.pollers ++ [{ generation }]
        control := .spawned monitor.pollers.length } []
  | startRefused {poller : Nat} (control : monitor.control = .spawned poller)
      (stuck : monitor.lifecycle.move? .start = none) :
      CallerMove monitor { monitor with control := .free }
        [.returned .start (.error (monitor.lifecycle.refusal .start))]
  | startMoved {poller : Nat} {lifecycle : Lifecycle} (control : monitor.control = .spawned poller)
      (moved : monitor.lifecycle.move? .start = some lifecycle) :
      CallerMove monitor { monitor with lifecycle, control := .started poller }
        [.logged .caller (monitor.lifecycle.moveLine .start lifecycle)]
  | started {poller : Nat} (control : monitor.control = .started poller) :
      CallerMove monitor { monitor with slot := some poller, control := .free }
        [.logged .caller monitor.startedLine, .returned .start (.ok 0)]
  | slotEmpty (control : monitor.control = .stopping) (slot : monitor.slot = none) :
      CallerMove monitor { monitor with control := .parted } []
  | slotTaken {poller : Nat} (control : monitor.control = .stopping)
      (slot : monitor.slot = some poller) :
      CallerMove monitor { monitor with slot := none, control := .taken poller } []
  | outdated {poller : Nat} (control : monitor.control = .taken poller) :
      CallerMove monitor { monitor with
        generation := monitor.generation + 1, control := .outdated poller } []
  | closed {poller : Nat} (control : monitor.control = .outdated poller) :
      CallerMove monitor { monitor with
        pollers := monitor.pollers.modify poller fun poller => { poller with closed := true }
        control := .joining poller } []
  | joined {index : Nat} {poller : Poller} (control : monitor.control = .joining index)
      (here : monitor.pollers[index]? = some poller) (gone : poller.phase = .exited) :
      CallerMove monitor { monitor with control := .parted } []
  | gaveUp {index : Nat} (control : monitor.control = .joining index) :
      CallerMove monitor { monitor with control := .parted }
        [.logged .caller (pollerLeft monitor.stopTimeout)]
  | stopRefused (control : monitor.control = .parted)
      (stuck : monitor.lifecycle.move? .stop = none) :
      CallerMove monitor { monitor with control := .free }
        [.returned .stop (.error (monitor.lifecycle.refusal .stop))]
  | stopped {lifecycle : Lifecycle} (control : monitor.control = .parted)
      (moved : monitor.lifecycle.move? .stop = some lifecycle) :
      CallerMove monitor { monitor with lifecycle, control := .free }
        [.logged .caller (monitor.lifecycle.moveLine .stop lifecycle),
          .logged .caller { monitor with lifecycle }.stoppedLine, .returned .stop (.ok 0)]
  | redirectUnusable {target : Path} {view : DirectoryView} {fault : Fault}
      (control : monitor.control = .redirecting target)
      (unusable : view.checkDirectory (monitor.absolute target) = .error fault) :
      CallerMove monitor { monitor with control := .free }
        [.returned (.setDirectory target) (.error fault)]
  | redirectChecked {target : Path} {view : DirectoryView}
      (control : monitor.control = .redirecting target)
      (usable : view.checkDirectory (monitor.absolute target) = .ok ()) :
      CallerMove monitor { monitor with control := .redirectable target } []
  | redirected {target : Path} (control : monitor.control = .redirectable target) :
      CallerMove monitor { monitor with
        directory := monitor.absolute target, control := .redirected target } []
  | rebased {target : Path} (control : monitor.control = .redirected target) :
      CallerMove monitor { monitor with baseline := none, control := .free }
        [.returned (.setDirectory target) (.ok 0)]

inductive CycleMove (monitor : Monitor) (actor : Actor) : CyclePhase → CycleStep → Prop
  | enters (idle : monitor.isCycling = false) :
      CycleMove monitor actor .waiting { phase := .entered, shown := [.entered actor] }
  | locates : CycleMove monitor actor .entered { phase := .located monitor.directory }
  | fails {directory : Path} {view : DirectoryView} {fault : Fault}
      (failed : Snapshot.capture view directory = .error fault) :
      CycleMove monitor actor (.located directory) {
        phase := .leaving (.error fault)
        shown := (Snapshot.captureLog view directory).map (.logged actor) }
  | captures {directory : Path} {view : DirectoryView} {after : Snapshot}
      (captured : Snapshot.capture view directory = .ok after) :
      CycleMove monitor actor (.located directory) {
        phase := .captured directory after
        shown := (Snapshot.captureLog view directory).map (.logged actor) }
  | recalls {directory : Path} {before after : Snapshot} (baseline : monitor.baseline = some before) :
      CycleMove monitor actor (.captured directory after) {
        phase := .comparing ⟨directory, before, after⟩
        shown := [.recalled actor (some before)] }
  | adopts {directory : Path} {after : Snapshot} (baseline : monitor.baseline = none)
      (mode : monitor.firstScan = .baseline) :
      CycleMove monitor actor (.captured directory after) {
        phase := .adopting directory after, shown := [.recalled actor none] }
  | startsEmpty {directory : Path} {after : Snapshot} (baseline : monitor.baseline = none)
      (mode : monitor.firstScan = .reportExisting) :
      CycleMove monitor actor (.captured directory after) {
        phase := .comparing ⟨directory, .empty directory, after⟩, shown := [.recalled actor none] }
  | accepted {directory : Path} {after : Snapshot} (current : monitor.isCurrent actor = true) :
      CycleMove monitor actor (.adopting directory after) {
        phase := .storing after 0
        shown := [.logged actor (CyclePhase.adoptedLine directory after)] }
  | refused {directory : Path} {after : Snapshot} (stale : monitor.isCurrent actor = false) :
      CycleMove monitor actor (.adopting directory after) {
        phase := .leaving (.ok 0), shown := [.dropped actor] }
  | equips {comparison : Comparison} :
      CycleMove monitor actor (.comparing comparison) {
        phase := .equipped comparison monitor.activities }
  | surveys {comparison : Comparison} {activities : List Activity} :
      CycleMove monitor actor (.equipped comparison activities) {
        phase := .recognizing ⟨comparison, monitor.listeners, activities, []⟩ }
  | consults {comparison : Comparison} {subscribers : List Subscriber} {activity : Activity}
      {left : List Activity} {reports : List Report} :
      CycleMove monitor actor (.recognizing ⟨comparison, subscribers, activity :: left, reports⟩) {
        phase := .consulting activity ⟨comparison, subscribers, left, reports⟩
        shown := [.consulted actor activity comparison] }
  | answers {activity : Activity} {survey : Survey} (given : Option (List Change)) :
      CycleMove monitor actor (.consulting activity survey) {
        phase := .recognizing (survey.note activity (activity.answer survey.comparison given))
        shown := (activity.answerLog survey.comparison given).map (.logged actor) }
  | decides {comparison : Comparison} {subscribers : List Subscriber} {reports : List Report}
      (current : monitor.isCurrent actor = true) :
      CycleMove monitor actor (.recognizing ⟨comparison, subscribers, [], reports⟩) {
        phase := .dispatching comparison (deliveries reports subscribers)
          (reports.flatMap Report.changes).length
        shown := [.decided actor comparison reports] }
  | drops {comparison : Comparison} {subscribers : List Subscriber} {reports : List Report}
      (stale : monitor.isCurrent actor = false) :
      CycleMove monitor actor (.recognizing ⟨comparison, subscribers, [], reports⟩) {
        phase := .leaving (.ok 0)
        shown := [.dropped actor, .logged actor (CyclePhase.droppedLine comparison.directory)] }
  | calls {comparison : Comparison} {delivery : Delivery} {left : List Delivery} {produced : Nat} :
      CycleMove monitor actor (.dispatching comparison (delivery :: left) produced) {
        phase := .delivering delivery comparison left produced
        shown := [.called actor delivery] }
  | handled {comparison : Comparison} {delivery : Delivery} {left : List Delivery} {produced : Nat}
      (verdict : Verdict) :
      CycleMove monitor actor (.delivering delivery comparison left produced) {
        phase := .dispatching comparison left produced
        shown := (Listener.rejection? delivery.report verdict).toList.map (.logged actor) }
  | stores {comparison : Comparison} {produced : Nat} :
      CycleMove monitor actor (.dispatching comparison [] produced) {
        phase := .storing comparison.after produced }
  | publishes {after : Snapshot} {produced : Nat} :
      CycleMove monitor actor (.storing after produced) {
        phase := .leaving (.ok produced)
        publishes := some after
        shown := [.published actor after] }

theorem stepCycle_move {monitor : Monitor} {actor : Actor} {phase : CyclePhase} {signal : Signal}
    {step : CycleStep} (taken : monitor.stepCycle actor phase signal = some step) :
    CycleMove monitor actor phase step := by
  simp only [stepCycle] at taken
  split at taken
  case h_1 =>
    split at taken
    · simp at taken
    · rename_i idle
      cases taken
      exact .enters (by simpa using idle)
  case h_2 =>
    cases taken
    exact .locates
  case h_3 =>
    split at taken
    · rename_i failed
      cases taken
      exact .fails failed
    · rename_i captured
      cases taken
      exact .captures captured
  case h_4 =>
    cases taken
    split
    · rename_i baseline
      rw [baseline]
      exact .recalls baseline
    · rename_i baseline mode
      rw [baseline]
      exact .adopts baseline mode
    · rename_i baseline mode
      rw [baseline]
      exact .startsEmpty baseline mode
  case h_5 =>
    split at taken
    · rename_i current
      cases taken
      exact .accepted current
    · rename_i stale
      cases taken
      exact .refused (by simpa using stale)
  case h_6 =>
    cases taken
    exact .equips
  case h_7 =>
    cases taken
    exact .surveys
  case h_8 survey =>
    obtain ⟨comparison, subscribers, left, reports⟩ := survey
    split at taken
    · rename_i noted
      cases taken
      cases noted
      exact .consults
    · rename_i noted
      cases noted
      split at taken
      · rename_i current
        cases taken
        exact .decides current
      · rename_i stale
        cases taken
        exact .drops (by simpa using stale)
  case h_9 given =>
    cases taken
    exact .answers given
  case h_10 =>
    cases taken
    exact .calls
  case h_11 =>
    cases taken
    exact .stores
  case h_12 verdict =>
    cases taken
    exact .handled verdict
  case h_13 =>
    cases taken
    exact .publishes
  case h_14 => simp at taken

theorem result?_logged {actor : Actor} {lines : List LogLine} :
    ∀ event ∈ lines.map (Event.logged actor), event.result? = none := by
  simp [Event.result?]

theorem CycleMove.result? {monitor : Monitor} {actor : Actor} {phase : CyclePhase}
    {step : CycleStep} (move : CycleMove monitor actor phase step) :
    ∀ event ∈ step.shown, event.result? = none := by
  cases move with
  | fails | captures | answers | handled => exact result?_logged
  | _ => simp [Event.result?]

theorem PollerTurn.result? {monitor : Monitor} {index : Nat} {closed : Bool}
    {phase next : PollerPhase} {shown : List Event}
    (turn : PollerTurn monitor index closed phase next shown) :
    ∀ event ∈ shown, event.result? = none := by
  cases turn with
  | ends result => cases result <;> simp [Event.result?]
  | _ => simp [Event.result?]

inductive Move (monitor : Monitor) : Monitor → List Event → Prop
  | cycles {actor : Actor} {phase : CyclePhase} {step : CycleStep}
      (here : monitor.cycleOf actor = some phase) (move : CycleMove monitor actor phase step) :
      Move monitor ((monitor.publish step).setCycle actor step.phase) step.shown
  | turns {index : Nat} {poller : Poller} {phase : PollerPhase} {shown : List Event}
      (here : monitor.pollers[index]? = some poller)
      (turn : PollerTurn monitor index poller.closed poller.phase phase shown) :
      Move monitor (monitor.setPoller index { poller with phase }) shown
  | scanned {result : Except Fault Nat} (control : monitor.control = .scanning (.leaving result)) :
      Move monitor { monitor with control := .free }
        [.left .caller result, .returned .scan result]
  | acts {after : Monitor} {shown : List Event} (move : CallerMove monitor after shown) :
      Move monitor after shown
  | edits (activities : Registry Activity) (listeners : Registry Subscriber) (serials : Nat)
      (delay : UInt64) : Move monitor { monitor with activities, listeners, serials, delay } []

theorem begin_move {monitor after : Monitor} {operation : Operation} {shown : List Event}
    (free : monitor.control = .free) (taken : monitor.begin operation = (after, shown)) :
    CallerMove monitor after shown := by
  cases operation with
  | start =>
      simp only [begin] at taken
      split at taken <;> cases taken
      · rename_i can
        exact .startCalled free can
      · exact .refused free (.inr ⟨_, rfl⟩)
  | stop =>
      simp only [begin] at taken
      split at taken <;> cases taken
      · rename_i can
        exact .stopCalled free (.inl can)
      · exact .refused free (.inr ⟨_, rfl⟩)
  | setDirectory target =>
      simp only [begin] at taken
      split at taken <;> cases taken
      · exact .refused free (.inr ⟨_, rfl⟩)
      · rename_i stopped
        exact .redirectCalled free (by simpa using stopped)
  | scan =>
      simp only [begin] at taken
      split at taken <;> cases taken
      · exact .refused free (.inr ⟨_, rfl⟩)
      · rename_i stopped
        exact .scanCalled free (by simpa using stopped)
  | drop =>
      simp only [begin] at taken
      split at taken <;> cases taken
      · rename_i running
        exact .stopCalled free (.inr running)
      · exact .refused free (.inl rfl)

/-- An operation is called only when none is under way. -/
theorem begin_of_step {monitor after : Monitor} {operation : Operation} {shown : List Event}
    (taken : monitor.step (.call operation) = some (after, shown)) :
    monitor.control = .free ∧ monitor.begin operation = (after, shown) := by
  simp only [step] at taken
  split at taken
  · rename_i free
    exact ⟨free, Option.some.inj taken⟩
  · simp at taken

theorem call_move {monitor after : Monitor} {operation : Operation} {shown : List Event}
    (taken : monitor.step (.call operation) = some (after, shown)) :
    CallerMove monitor after shown := by
  obtain ⟨free, begun⟩ := begin_of_step taken
  exact begin_move free begun

theorem setPoller_publish {monitor : Monitor} {index : Nat} {poller : Poller}
    (here : monitor.pollers[index]? = some poller) (step : CycleStep) :
    (monitor.publish step).setPoller index { poller with phase := .cycling step.phase } =
      (monitor.publish step).setCycle (.poller index) step.phase := by
  have moved : monitor.pollers.set index { poller with phase := .cycling step.phase } =
      monitor.pollers.modify index fun poller => { poller with phase := .cycling step.phase } := by
    apply List.ext_getElem?
    intro other
    rw [List.getElem?_set, List.getElem?_modify]
    by_cases same : index = other
    · subst other
      obtain ⟨below, found⟩ := List.getElem?_eq_some_iff.mp here
      simp [below, found]
    · simp [same]
  simp only [setPoller, setCycle, publish_eq, moved]

inductive PollerStep (monitor : Monitor) (index : Nat) : Monitor → List Event → Prop
  | turns {poller : Poller} {phase : PollerPhase} {shown : List Event}
      (here : monitor.pollers[index]? = some poller)
      (turn : PollerTurn monitor index poller.closed poller.phase phase shown) :
      PollerStep monitor index (monitor.setPoller index { poller with phase }) shown
  | cycles {phase : CyclePhase} {step : CycleStep}
      (here : monitor.cycleOf (.poller index) = some phase)
      (move : CycleMove monitor (.poller index) phase step) :
      PollerStep monitor index ((monitor.publish step).setCycle (.poller index) step.phase)
        step.shown

theorem stepPoller_pollerStep {monitor after : Monitor} {index : Nat} {poller : Poller}
    {signal : Signal} {shown : List Event} (here : monitor.pollers[index]? = some poller)
    (taken : monitor.stepPoller index poller signal = some (after, shown)) :
    PollerStep monitor index after shown := by
  simp only [stepPoller] at taken
  split at taken
  case h_1 checking =>
    split at taken
    · rename_i closed
      cases taken
      exact .turns here (checking ▸ .heeds (.inl rfl) closed)
    · rename_i free
      cases taken
      exact .turns here (checking ▸ .begins (by simpa using free))
  case h_2 result leaving =>
    cases taken
    exact .turns here (leaving ▸ .ends result)
  case h_3 _ phase cycling _ =>
    simp only [Option.bind_eq_bind, Option.bind_eq_some_iff] at taken
    obtain ⟨step, goes, taken⟩ := taken
    cases taken
    have inCycle : monitor.cycleOf (.poller index) = some phase := by
      simp [cycleOf, here, cycling, PollerPhase.cycle?]
    rw [setPoller_publish here]
    exact .cycles inCycle (stepCycle_move goes)
  case h_4 resting =>
    cases taken
    exact .turns here (resting ▸ .wakes)
  case h_5 resting =>
    split at taken
    · rename_i closed
      cases taken
      exact .turns here (resting ▸ .heeds (.inr rfl) closed)
    · simp at taken
  case h_6 => simp at taken

theorem PollerStep.result? {monitor after : Monitor} {index : Nat} {shown : List Event}
    (step : PollerStep monitor index after shown) : ∀ event ∈ shown, event.result? = none := by
  cases step with
  | turns _ turn => exact turn.result?
  | cycles _ move => exact move.result?

theorem PollerStep.move {monitor after : Monitor} {index : Nat} {shown : List Event}
    (step : PollerStep monitor index after shown) : Move monitor after shown := by
  cases step with
  | turns here turn => exact .turns here turn
  | cycles here move => exact .cycles here move

/-- A poller changes nothing but the baseline and itself. -/
theorem PollerStep.frame {monitor after : Monitor} {index : Nat} {shown : List Event}
    (step : PollerStep monitor index after shown) :
    ∃ baseline pollers, after = { monitor with baseline, pollers } ∧
      ∀ other, index ≠ other → pollers[other]? = monitor.pollers[other]? := by
  cases step with
  | turns => exact ⟨_, _, rfl, fun _ different => List.getElem?_set_ne different⟩
  | cycles =>
      rw [publish_eq]
      exact ⟨_, _, rfl, fun _ different => by simp [different]⟩

theorem PollerStep.control {monitor after : Monitor} {index : Nat} {shown : List Event}
    (step : PollerStep monitor index after shown) : after.control = monitor.control := by
  obtain ⟨baseline, pollers, rfl, -⟩ := step.frame
  rfl

theorem stepPoller_of_step {monitor after : Monitor} {index : Nat} {signal : Signal}
    {shown : List Event}
    (taken : monitor.step (.go (.poller index) signal) = some (after, shown)) :
    ∃ poller, monitor.pollers[index]? = some poller ∧
      monitor.stepPoller index poller signal = some (after, shown) := by
  simpa only [step, Option.bind_eq_bind, Option.bind_eq_some_iff] using taken

theorem pollerStep_of_step {monitor after : Monitor} {index : Nat} {signal : Signal}
    {shown : List Event} (taken : monitor.step (.go (.poller index) signal) = some (after, shown)) :
    PollerStep monitor index after shown := by
  obtain ⟨poller, here, taken⟩ := stepPoller_of_step taken
  exact stepPoller_pollerStep here taken

/-- A step of the caller that goes on with its operation. -/
inductive CallerStep (monitor : Monitor) : Monitor → List Event → Prop
  | acts {after : Monitor} {shown : List Event} (move : CallerMove monitor after shown) :
      CallerStep monitor after shown
  | cycles {phase : CyclePhase} {step : CycleStep} (control : monitor.control = .scanning phase)
      (move : CycleMove monitor .caller phase step) :
      CallerStep monitor ((monitor.publish step).setCycle .caller step.phase) step.shown
  | scanned {result : Except Fault Nat} (control : monitor.control = .scanning (.leaving result)) :
      CallerStep monitor { monitor with control := .free }
        [.left .caller result, .returned .scan result]

theorem stepControl_callerStep {monitor after : Monitor} {signal : Signal} {shown : List Event}
    (taken : monitor.stepControl signal = some (after, shown)) :
    CallerStep monitor after shown := by
  simp only [stepControl] at taken
  split at taken
  case h_1 control =>
    split at taken <;> cases taken
    · rename_i unusable
      exact .acts (.startUnusable control unusable)
    · rename_i usable
      exact .acts (.startChecked control usable)
  case h_2 control =>
    cases taken
    exact .acts (.numbered control)
  case h_3 control =>
    cases taken
    exact .acts (.spawned control)
  case h_4 control =>
    split at taken <;> cases taken
    · rename_i stuck
      exact .acts (.startRefused control stuck)
    · rename_i moved
      exact .acts (.startMoved control moved)
  case h_5 control =>
    cases taken
    exact .acts (.started control)
  case h_6 control =>
    split at taken <;> cases taken
    · rename_i slot
      exact .acts (.slotEmpty control slot)
    · rename_i slot
      exact .acts (.slotTaken control slot)
  case h_7 control =>
    cases taken
    exact .acts (.outdated control)
  case h_8 control =>
    cases taken
    exact .acts (.closed control)
  case h_9 control =>
    split at taken
    · rename_i here
      cases taken
      exact .acts (.joined control here rfl)
    · simp at taken
  case h_10 control =>
    cases taken
    exact .acts (.gaveUp control)
  case h_11 control =>
    split at taken <;> cases taken
    · rename_i stuck
      exact .acts (.stopRefused control stuck)
    · rename_i moved
      exact .acts (.stopped control moved)
  case h_12 control =>
    split at taken <;> cases taken
    · rename_i unusable
      exact .acts (.redirectUnusable control unusable)
    · rename_i usable
      exact .acts (.redirectChecked control usable)
  case h_13 control =>
    cases taken
    exact .acts (.redirected control)
  case h_14 control =>
    cases taken
    exact .acts (.rebased control)
  case h_15 control =>
    cases taken
    exact .scanned control
  case h_16 _ phase control _ =>
    simp only [Option.bind_eq_bind, Option.bind_eq_some_iff] at taken
    obtain ⟨step, goes, taken⟩ := taken
    cases taken
    exact .cycles control (stepCycle_move goes)
  case h_17 => simp at taken

theorem CallerStep.move {monitor after : Monitor} {shown : List Event}
    (step : CallerStep monitor after shown) : Move monitor after shown := by
  cases step with
  | acts move => exact .acts move
  | cycles control move =>
      refine .cycles ?_ move
      simp [cycleOf, control, Control.cycle?]
  | scanned control => exact .scanned control

theorem step_move {monitor after : Monitor} {action : Action} {shown : List Event}
    (taken : monitor.step action = some (after, shown)) : Move monitor after shown := by
  cases action with
  | call operation => exact .acts (call_move taken)
  | go actor signal =>
      cases actor with
      | caller => exact (stepControl_callerStep taken).move
      | poller index => exact (pollerStep_of_step taken).move
  | _ =>
      cases taken
      exact .edits ..

theorem firstScan_move {monitor after : Monitor} {shown : List Event}
    (move : Move monitor after shown) : after.firstScan = monitor.firstScan := by
  cases move with
  | @cycles actor =>
      rw [publish_eq]
      cases actor <;> rfl
  | acts move => cases move <;> rfl
  | turns | scanned | edits => rfl

def Control.isRedirect : Control → Bool
  | redirecting _ | redirectable _ | redirected _ => true
  | _ => false

theorem CallerMove.isRedirect {monitor after : Monitor} {shown : List Event}
    (move : CallerMove monitor after shown)
    (redirect : after.control.isRedirect = true) :
    monitor.control.isRedirect = true ∨ monitor.control = .free := by
  cases move with
  | redirectChecked control | redirected control => simp [control, Control.isRedirect]
  | redirectCalled control | refused control => exact .inr control
  | _ => simp [Control.isRedirect] at redirect

theorem isRedirect_step {monitor after : Monitor} {action : Action} {shown : List Event}
    (taken : monitor.step action = some (after, shown))
    (keeps : ∀ target, action ≠ .call (.setDirectory target))
    (before : monitor.control.isRedirect = false) : after.control.isRedirect = false := by
  cases action with
  | call operation =>
      obtain ⟨-, begun⟩ := begin_of_step taken
      cases operation with
      | setDirectory target => exact absurd rfl (keeps target)
      | start | stop | scan | drop =>
          simp only [begin] at begun
          split at begun <;> cases begun <;> first | rfl | exact before
  | go actor signal =>
      cases actor with
      | poller index =>
          rw [(pollerStep_of_step taken).control]
          exact before
      | caller =>
          have busy : monitor.control ≠ .free := by
            intro free
            simp [step, stepControl, free] at taken
          cases step_move taken with
          | @cycles actor =>
              rw [publish_eq]
              cases actor with
              | caller => rfl
              | poller index => exact before
          | turns => exact before
          | scanned => rfl
          | edits => exact before
          | acts move =>
              cases redirect : after.control.isRedirect with
              | false => rfl
              | true =>
                  rcases move.isRedirect redirect with was | free
                  · simp [before] at was
                  · exact absurd free busy
  | _ =>
      cases taken
      exact before

end Monitor

end FolderWatch
