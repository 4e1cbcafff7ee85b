import FolderWatch.Proofs.Drain.Batches
import FolderWatch.Proofs.Monitor.Delivering
import FolderWatch.Proofs.Settings.Precedence
import FolderWatch.Proofs.Watch.Stages

/-!
What a watch has written when its main thread is through: a line for every change that its listener
was told of, in that order, but none for what the drain's worker left in the queue.
-/

namespace FolderWatch.Watch

open Program

variable {watch after first last : Watch} {action : Action} {shown more : List Event}

theorem lines_append (plan : Plan) (first second : List Change) :
    plan.lines (first ++ second) = plan.lines first ++ plan.lines second :=
  List.filterMap_append

theorem told_writings (plan : Plan) (change : Change) : told (writings plan change) = [] := by
  cases line : plan.line? change <;> simp [told, reports, writings, line]

theorem written_writings (plan : Plan) (change : Change) :
    written (writings plan change) = plan.lines [change] := by
  cases line : plan.line? change <;> simp [written, writings, Plan.lines, line]

theorem written_tellings (events : List Monitor.Event) : written (tellings events) = [] := by
  simp only [written, tellings, List.filterMap_filterMap, List.filterMap_eq_nil_iff]
  intro event member
  cases event <;> rfl

theorem tellings_of_silent {events : List Monitor.Event}
    (silent : ∀ actor delivery, .called actor delivery ∉ events) : tellings events = [] := by
  simp only [tellings, List.filterMap_eq_nil_iff]
  intro event member
  cases event with
  | called actor delivery => exact absurd member (silent actor delivery)
  | _ => rfl

theorem takeUp_eq (outgoing : List Change) (events : List (Drain.Event Change)) :
    events.foldl takeUp outgoing = outgoing ++ (Drain.handedBatches events).flatten := by
  induction events generalizing outgoing with
  | nil => simp [Drain.handedBatches]
  | cons event rest ih =>
      rw [List.foldl_cons, ih]
      cases event <;> simp [takeUp, Drain.handedBatches]

/-- The accounts of a watch: its listener has got to the changes `passed`, its drain has shown
`past`, and the drain's callback has got to the changes `handled`. -/
structure Ledger (passed : List Change) (past : List (Drain.Event Change))
    (handled : List Change) (shown : List Event) (watch : Watch) : Prop where
  run : Drain.PatientRun {} past watch.drain
  told : told shown = passed ++ watch.incoming
  pushed : Drain.pushedItems past = if watch.isBatched then passed else []
  handed : (Drain.handedBatches past).flatten = handled ++ watch.outgoing
  written : written shown = watch.plan.lines (if watch.isBatched then handled else passed)
  listening : watch.incoming ≠ [] → watch.monitor.Delivers
  calling : watch.outgoing ≠ [] → Drain.callInProgress past ≠ none

variable {passed handled : List Change} {past : List (Drain.Event Change)}

theorem Ledger.stage (ledger : Ledger passed past handled shown watch) (stage : Stage) :
    Ledger passed past handled shown { watch with stage } :=
  ⟨ledger.run, ledger.told, ledger.pushed, ledger.handed, ledger.written, ledger.listening,
    ledger.calling⟩

/-- What the drain's caller does is about no change. -/
theorem Ledger.callers {action : Drain.Action Change} {drain : Drain Change}
    {events : List (Drain.Event Change)} (ledger : Ledger passed past handled shown watch)
    (waits : action ≠ .control .leave) (taken : watch.drain.step action = some (drain, events))
    (callers : ∀ event ∈ events, event.IsCallers) :
    Ledger passed (past ++ events) handled shown { watch with drain } := by
  refine ⟨ledger.run.step action waits taken, ledger.told, ?_, ?_, ledger.written,
    ledger.listening, ?_⟩
  · rw [Drain.pushedItems_append, Drain.pushedItems_of_callers callers, List.append_nil]
    exact ledger.pushed
  · rw [Drain.handedBatches_append, Drain.handedBatches_of_callers callers, List.append_nil]
    exact ledger.handed
  · intro busy
    rw [Drain.callInProgress_append, Drain.callAfter_of_callers callers]
    exact ledger.calling busy

theorem Ledger.monitor {monitor : Monitor} (ledger : Ledger passed past handled shown watch)
    (keeps : watch.monitor.Delivers → monitor.Delivers) :
    Ledger passed past handled shown { watch with monitor } :=
  ⟨ledger.run, ledger.told, ledger.pushed, ledger.handed, ledger.written,
    fun busy => keeps (ledger.listening busy), ledger.calling⟩

theorem Ledger.advance (ledger : Ledger passed past handled shown watch)
    (advanced : watch.advance = some after) :
    ∃ further, Ledger passed (past ++ further) handled shown after := by
  cases advances_of_advance advanced with
  | turns stage => exact ⟨[], by simpa using ledger.stage stage⟩
  | operates taken =>
      have kept := ledger.monitor fun delivers => delivers.call taken
      exact ⟨[], by simpa using kept.stage _⟩
  | operatesDrain taken =>
      have called := ledger.callers (by simp) taken (Drain.call_move taken).callers
      exact ⟨_, called.stage _⟩

/-- The listener is told of more only when it has got to all before. -/
theorem Ledger.turn {actor : Monitor.Actor} {signal : Monitor.Signal} {monitor : Monitor}
    {events : List Monitor.Event} (ledger : Ledger passed past handled shown watch)
    (returns : watch.returns signal = true)
    (taken : watch.monitor.step (.go actor signal) = some (monitor, events)) :
    Ledger passed past handled (shown ++ tellings events)
      (events.foldl notice { watch with monitor }) := by
  obtain ⟨fault, noticed⟩ := notice_eq { watch with monitor } events
  rw [noticed]
  refine ⟨ledger.run, ?_, ledger.pushed, ledger.handed, ?_, ?_, ledger.calling⟩
  · rw [told_append, ledger.told, List.append_assoc]
  · rw [written_append, written_tellings, List.append_nil]
    exact ledger.written
  · intro busy
    by_cases idle : watch.incoming = []
    · by_cases called : ∃ speaker delivery, .called speaker delivery ∈ events
      · obtain ⟨speaker, delivery, member⟩ := called
        exact (Monitor.step_move taken).passage.delivers member
      · simp only [not_exists] at called
        simp [idle, tellings_of_silent called, Watch.told, reports] at busy
    · refine (ledger.listening idle).go taken ?_
      rintro verdict rfl
      simp [Watch.returns, idle] at returns

theorem Ledger.work {worker : Nat} {signal : Drain.Signal} {drain : Drain Change}
    {events : List (Drain.Event Change)} (ledger : Ledger passed past handled shown watch)
    (returns : watch.callbackReturns signal = true)
    (taken : watch.drain.step (.work worker signal) = some (drain, events)) :
    Ledger passed (past ++ events) handled shown
      { watch with drain, outgoing := events.foldl takeUp watch.outgoing } := by
  obtain ⟨mover, phase, queue, here, move, -⟩ := Drain.work_move taken
  refine ⟨ledger.run.step (.work worker signal) (by simp) taken, ledger.told, ?_, ?_,
    ledger.written, ledger.listening, ?_⟩
  · rw [Drain.pushedItems_append, move.pushedItems, List.append_nil]
    exact ledger.pushed
  · rw [Drain.handedBatches_append, List.flatten_append, ledger.handed, takeUp_eq,
      List.append_assoc]
  · intro busy
    rw [takeUp_eq] at busy
    rw [Drain.callInProgress_append]
    rcases Drain.call_lasts taken (Drain.callInProgress past) with
      ⟨panicked, rfl, nothing⟩ | lasts
    · -- The callback returns only when it has got to everything.
      have through : watch.outgoing = [] := by
        simp only [Watch.callbackReturns, decide_eq_true_eq] at returns
        exact returns.2
      simp [through, nothing] at busy
    · refine lasts ?_
      by_cases idle : watch.outgoing = []
      · right
        intro nothing
        simp [idle, nothing] at busy
      · exact .inl (ledger.calling idle)

theorem Ledger.queue {change : Change} {incoming : List Change} {drain : Drain Change}
    {events : List (Drain.Event Change)} (ledger : Ledger passed past handled shown watch)
    (batched : watch.isBatched = true) (next : watch.incoming = change :: incoming)
    (taken : watch.drain.step (.push change) = some (drain, events)) :
    Ledger (passed ++ [change]) (past ++ events) handled shown { watch with drain, incoming } := by
  have run := ledger.run.step (.push change) (by simp) taken
  have told := ledger.told
  have pushed := ledger.pushed
  have written := ledger.written
  simp only [batched, if_true] at pushed written
  simp only [Drain.step, Option.some.injEq, Prod.mk.injEq] at taken
  obtain ⟨-, rfl⟩ := taken
  refine ⟨run, ?_, ?_, ?_, ?_, ?_, ?_⟩
  · rw [told, next, List.append_assoc]
    rfl
  · show _ = if watch.isBatched then _ else _
    rw [batched, if_pos rfl, Drain.pushedItems_append, pushed]
    rfl
  · rw [Drain.handedBatches_append]
    simpa [Drain.handedBatches] using ledger.handed
  · show _ = watch.plan.lines (if watch.isBatched then _ else _)
    rw [batched, if_pos rfl, written]
  · intro _
    exact ledger.listening (by simp [next])
  · intro busy
    rw [Drain.callInProgress_append]
    exact ledger.calling busy

theorem Ledger.pass {change : Change} {incoming : List Change}
    (ledger : Ledger passed past handled shown watch) (direct : watch.isBatched = false)
    (next : watch.incoming = change :: incoming) :
    Ledger (passed ++ [change]) past handled (shown ++ writings watch.plan change)
      { watch with incoming } := by
  have pushed := ledger.pushed
  have written := ledger.written
  simp only [direct, Bool.false_eq_true, if_false] at pushed written
  refine ⟨ledger.run, ?_, ?_, ledger.handed, ?_, ?_, ledger.calling⟩
  · rw [told_append, told_writings, ledger.told, next]
    simp
  · show _ = if watch.isBatched then _ else _
    rw [direct, if_neg (by simp), pushed]
  · show _ = watch.plan.lines (if watch.isBatched then _ else _)
    rw [direct, if_neg (by simp), written_append, written, written_writings, lines_append]
  · intro _
    exact ledger.listening (by simp [next])

/-- Unbatched, the drain has nothing to hand over. -/
theorem Ledger.direct (ledger : Ledger passed past handled shown watch)
    (direct : watch.isBatched = false) : watch.outgoing = [] ∧ watch.drain.queue = [] := by
  have pushed := ledger.pushed
  rw [direct, if_neg (by simp)] at pushed
  have sequence := ledger.run.inOrder.sequence
  rw [pushed, ledger.handed] at sequence
  simp only [List.append_eq_nil_iff] at sequence
  exact ⟨sequence.1.1.2, sequence.2⟩

theorem Ledger.write {change : Change} {outgoing : List Change}
    (ledger : Ledger passed past handled shown watch)
    (next : watch.outgoing = change :: outgoing) :
    Ledger passed past (handled ++ [change]) (shown ++ writings watch.plan change)
      { watch with outgoing } := by
  have batched : watch.isBatched = true := by
    cases batched : watch.isBatched with
    | true => rfl
    | false =>
        have nothing := (ledger.direct batched).1
        rw [next] at nothing
        cases nothing
  have written := ledger.written
  rw [batched, if_pos rfl] at written
  refine ⟨ledger.run, ?_, ledger.pushed, ?_, ?_, ledger.listening, ?_⟩
  · rw [told_append, told_writings, List.append_nil]
    exact ledger.told
  · rw [ledger.handed, next, List.append_assoc]
    rfl
  · show _ = watch.plan.lines (if watch.isBatched then _ else _)
    rw [batched, if_pos rfl, written_append, written, written_writings, lines_append]
  · intro _
    exact ledger.calling (by simp [next])

theorem Ledger.step (ledger : Ledger passed past handled shown watch)
    (waits : action.givesUp = false) (taken : watch.step action = some (after, more)) :
    ∃ passed past handled, Ledger passed past handled (shown ++ more) after := by
  obtain ⟨-, move⟩ := step_move taken
  cases move with
  | advances advanced =>
      obtain ⟨further, advances⟩ := ledger.advance advanced
      rw [List.append_nil]
      exact ⟨_, _, _, advances⟩
  | turns returns turned => exact ⟨_, _, _, ledger.turn returns turned⟩
  | @steers signal drain events steered =>
      have patient : Drain.Action.control (α := Change) signal ≠ .control .leave := by
        intro same
        cases same
        simp [Action.givesUp] at waits
      rw [List.append_nil]
      exact ⟨_, _, _, ledger.callers patient steered (Drain.control_move steered).callers⟩
  | works returns worked =>
      rw [List.append_nil]
      exact ⟨_, _, _, ledger.work returns worked⟩
  | queues batched next pushed =>
      rw [List.append_nil]
      exact ⟨_, _, _, ledger.queue batched next pushed⟩
  | passes direct next => exact ⟨_, _, _, ledger.pass direct next⟩
  | writes next => exact ⟨_, _, _, ledger.write next⟩

theorem Ledger.ofPlan {surroundings : Surroundings} {plan : Plan}
    (opened : Watch.ofPlan surroundings plan = .ok watch) : Ledger [] [] [] [] watch := by
  obtain ⟨fresh, -, rfl⟩ := ofPlan_eq opened
  refine ⟨.rest _, rfl, ?_, rfl, ?_, by simp, by simp⟩
  · split <;> rfl
  · split <;> rfl

theorem PatientRun.ledger (run : PatientRun first shown last)
    (opened : Ledger [] [] [] [] first) :
    ∃ passed past handled, Ledger passed past handled shown last := by
  induction run with
  | rest => exact ⟨[], [], [], opened⟩
  | step action run waits taken ih =>
      obtain ⟨passed, past, handled, ledger⟩ := ih
      exact ledger.step waits taken

theorem Ledger.incoming_of_finished (ledger : Ledger passed past handled shown watch)
    (staged : Staged watch) (finished : watch.stage = .finished) : watch.incoming = [] := by
  have placed := staged.placed
  simp only [Placed, finished] at placed
  obtain ⟨⟨free, stopped⟩, -⟩ := placed
  by_cases through : watch.incoming = []
  · exact through
  · have delivers := ledger.listening through
    exact absurd delivers
      (Monitor.not_delivers_of_stopped staged.alone staged.monitor free stopped)

/-- The drain's worker is gone, so it holds nothing and is in no call. -/
theorem Ledger.outgoing_of_finished (ledger : Ledger passed past handled shown watch)
    (staged : Staged watch) (finished : watch.stage = .finished) :
    watch.outgoing = [] ∧ watch.drain.held = [] := by
  have placed := staged.placed
  simp only [Placed, finished] at placed
  obtain ⟨-, free, stopped⟩ := placed
  have gone {index : Nat} {worker : Drain.Worker Change}
      (here : watch.drain.workers[index]? = some worker) : worker.phase = .exited :=
    ledger.run.sole.gone_of_stopped staged.drain free stopped here
  constructor
  · by_cases through : watch.outgoing = []
    · exact through
    · cases call : Drain.callInProgress past with
      | none => exact absurd call (ledger.calling through)
      | some current =>
          obtain ⟨index, batch⟩ := current
          have calls := (ledger.run.run.calls index batch).mpr call
          obtain ⟨worker, here, phase⟩ := Option.map_eq_some_iff.mp calls
          rw [gone here] at phase
          cases phase
  · simp only [Drain.held, List.flatMap_eq_nil_iff]
    intro worker member
    obtain ⟨index, here⟩ := List.mem_iff_getElem?.mp member
    simp [Drain.Worker.held, gone here]

theorem Ledger.balance (ledger : Ledger passed past handled shown watch) (staged : Staged watch)
    (finished : watch.stage = .finished) :
    Watch.written shown ++ watch.plan.lines watch.drain.queue =
      watch.plan.lines (Watch.told shown) := by
  have told := ledger.told
  rw [ledger.incoming_of_finished staged finished, List.append_nil] at told
  cases batched : watch.isBatched with
  | true =>
      obtain ⟨through, held⟩ := ledger.outgoing_of_finished staged finished
      have sequence := ledger.run.inOrder.sequence
      rw [ledger.handed, through, held, ledger.pushed, batched] at sequence
      simp only [List.append_nil, if_true] at sequence
      rw [ledger.written, batched, if_pos rfl, told, ← sequence, lines_append]
  | false =>
      rw [ledger.written, batched, if_neg (by simp), told, (ledger.direct batched).2]
      simp [Plan.lines]

theorem Move.plan (move : Move watch action after more) : after.plan = watch.plan := by
  cases move with
  | advances advanced =>
      cases advances_of_advance advanced with
      | turns | operates | operatesDrain => rfl
  | turns =>
      obtain ⟨fault, noticed⟩ := notice_eq _ _
      rw [noticed]
  | steers | works | queues | passes | writes => rfl

theorem PatientRun.plan (run : PatientRun first shown last) : last.plan = first.plan := by
  induction run with
  | rest => rfl
  | step action run waits taken ih => exact (step_move taken).2.plan.trans ih

theorem batched_of_asked {surroundings : Surroundings} {plan : Plan}
    (planned : Program.plan surroundings = .ok plan) (asked : plan.line.unbatched = true) :
    plan.settings.batched = false := by
  obtain ⟨-, -, loaded, -, -⟩ := plan_eq_ok_iff.mp planned
  simp only [effectiveSettings, bind, Except.bind, pure, Except.pure] at loaded
  split at loaded
  · cases loaded
  · simp only [Except.ok.injEq] at loaded
    rw [← loaded]
    simp [CommandLine.applyTo, asked]

theorem lines_of_asked {plan other : Plan}
    (asked : other.line = { plan.line with unbatched := true }) (changes : List Change) :
    other.lines changes = plan.lines changes := by
  unfold Plan.lines Plan.line?
  rw [asked]
  rfl

/-- A whole run of the program in which neither stop gives up waiting. -/
structure WholeRun (surroundings : Surroundings) (plan : Plan) (shown : List Event)
    (last : Watch) : Prop where
  planned : Program.plan surroundings = .ok plan
  run : ∃ first, Watch.ofPlan surroundings plan = .ok first ∧ PatientRun first shown last
  finished : last.stage = .finished

theorem WholeRun.balance {surroundings : Surroundings} {plan : Plan}
    (whole : WholeRun surroundings plan shown last) :
    written shown ++ plan.lines last.drain.queue = plan.lines (told shown) ∧
      (plan.settings.batched = false → last.drain.queue = []) := by
  obtain ⟨first, opened, run⟩ := whole.run
  obtain ⟨passed, past, handled, ledger⟩ := run.ledger (.ofPlan opened)
  have staged := run.staged (.ofPlan opened)
  have same : last.plan = plan := by
    obtain ⟨fresh, -, rfl⟩ := ofPlan_eq opened
    exact run.plan
  rw [← same]
  exact ⟨ledger.balance staged whole.finished, fun direct => (ledger.direct direct).2⟩

/-- Asked to write every change at once and told of the same reports, the program writes the lines
of all changes told. Batched, it writes them but for those of the changes left in the drain's queue,
and so it writes the same lines exactly if none of these has a line. -/
theorem batched_output {surroundings others : Surroundings} {plan planDirect : Plan}
    {shownDirect : List Event} {lastDirect : Watch}
    (whole : WholeRun surroundings plan shown last)
    (wholeDirect : WholeRun others planDirect shownDirect lastDirect)
    (asked : planDirect.line = { plan.line with unbatched := true })
    (same : reports shown = reports shownDirect) :
    written shownDirect = plan.lines (told shown) ∧
      written shownDirect = written shown ++ plan.lines last.drain.queue ∧
      (written shown = written shownDirect ↔ plan.lines last.drain.queue = []) := by
  obtain ⟨balance, -⟩ := whole.balance
  obtain ⟨balanceDirect, nothing⟩ := wholeDirect.balance
  have unqueued := nothing (batched_of_asked wholeDirect.planned (by rw [asked]))
  have toldSame : told shownDirect = told shown := by rw [told, told, same]
  have writtenDirect : written shownDirect = plan.lines (told shown) := by
    rw [unqueued, toldSame, lines_of_asked asked, lines_of_asked asked] at balanceDirect
    simpa [Plan.lines] using balanceDirect
  refine ⟨writtenDirect, writtenDirect.trans balance.symm, ?_⟩
  rw [writtenDirect, ← balance]
  constructor
  · intro equal
    exact List.append_right_eq_self.mp equal.symm
  · intro nothingLeft
    rw [nothingLeft, List.append_nil]

def runsTo (surroundings : Surroundings) (actions : List Action)
    (check : Plan → List Event → Watch → Bool) : Bool :=
  match Program.plan surroundings with
  | .error _ => false
  | .ok plan =>
      match Watch.ofPlan surroundings plan with
      | .error _ => false
      | .ok first =>
          (first.steps actions).any fun (last, shown) =>
            last.stage = .finished && check plan shown last

theorem exists_wholeRun {surroundings : Surroundings} {actions : List Action}
    {check : Plan → List Event → Watch → Bool}
    (waits : actions.all fun action => !action.givesUp)
    (runs : runsTo surroundings actions check = true) :
    ∃ plan shown last, WholeRun surroundings plan shown last ∧ check plan shown last = true := by
  unfold runsTo at runs
  split at runs
  · simp at runs
  · rename_i plan planned
    split at runs
    · simp at runs
    · rename_i first opened
      obtain ⟨⟨last, shown⟩, taken, holds⟩ := (Option.any_eq_true ..).mp runs
      simp only [Bool.and_eq_true, decide_eq_true_eq] at holds
      have run := (PatientRun.rest first).steps actions waits taken
      exact ⟨plan, shown, last, ⟨planned, ⟨first, opened, run⟩, holds.1⟩, holds.2⟩

/-- A directory of two files, of which one has an extension that is watched. -/
def twoFiles : DirectoryView where
  list _ := .ok [.entry (Utf8.encode "a.txt"), .entry (Utf8.encode "b")]
  lookup path := .ok (if path = .ofString "/in" then .directory else .file 1 (.ofNanos 0))

def surroundingsOf (options : List String) : Surroundings where
  arguments := (["dirpoll", "--report-existing", "--output", "compact", "--extensions", "txt"] ++
    options ++ ["/in"]).map Utf8.encode
  environment := []
  workingDirectory := .ofString "/"
  view := twoFiles
  read? _ := none

def lineOf (unbatched : Bool) : CommandLine where
  path := some (.ofString "/in")
  output := some .compact
  extensions := some ["txt"]
  reportExisting := true
  unbatched := unbatched

def createdReport : Report where
  source := "created"
  changes := [Utf8.encode "/in/a.txt", Utf8.encode "/in/b"].map fun path =>
    ⟨.created, none, some ⟨⟨path⟩, 1, 0⟩⟩

/-- The monitor is started, runs one cycle and is stopped. -/
def oneCycle (listening : List Action) : List Action :=
  let caller := Action.monitor .caller
  let poller := Action.monitor (.poller 0)
  [.advance, caller (.saw twoFiles)] ++ List.replicate 4 (caller .proceed) ++ [.advance] ++
    List.replicate 3 (poller .proceed) ++ [poller (.saw twoFiles)] ++
    List.replicate 3 (poller .proceed) ++
    (List.replicate 3 [poller .proceed, poller (.recognized none)]).flatten ++
    List.replicate 2 (poller .proceed) ++ listening ++ [poller (.handled .accepted)] ++
    List.replicate 3 (poller .proceed) ++ [.advance] ++ List.replicate 3 (caller .proceed) ++
    [poller .leave] ++ List.replicate 2 (caller .proceed)

/-- The drain's worker leaves with whatever is queued by then. -/
def batchedRun (listening : List Action) : List Action :=
  [.advance] ++ List.replicate 3 (.control .proceed) ++ oneCycle listening ++
    [.advance, .control .proceed, .control .proceed, .work 0 .leave, .control .proceed,
      .control .proceed, .advance]

def directRun : List Action := oneCycle [.pass, .pass] ++ [.advance]

/-- The drain hands over the one change that has a line and leaves the other in its queue. -/
def firstHandedOver : List Action :=
  [.pass] ++ List.replicate 4 (.work 0 .proceed) ++
    [.write, .work 0 (.ended false), .work 0 .proceed, .pass]

theorem batched_output_unwatched_left :
    ∃ plan planDirect shown shownDirect last lastDirect,
      WholeRun (surroundingsOf []) plan shown last ∧ plan.settings.batched = true ∧
      WholeRun (surroundingsOf ["--no-batch"]) planDirect shownDirect lastDirect ∧
      planDirect.line = { plan.line with unbatched := true } ∧
      reports shown = reports shownDirect ∧ last.drain.queue.length = 1 ∧
      written shown = ["C /in/a.txt"] ∧ written shown = written shownDirect := by
  have batching : runsTo (surroundingsOf []) (batchedRun firstHandedOver)
      (fun plan shown last => plan.settings.batched && plan.line = lineOf false &&
        reports shown = [createdReport] && last.drain.queue.length = 1 &&
        plan.lines last.drain.queue = [] && written shown = ["C /in/a.txt"]) = true := by
    decide +kernel
  have writing : runsTo (surroundingsOf ["--no-batch"]) directRun
      (fun plan shown _ => plan.line = lineOf true && reports shown = [createdReport]) = true := by
    decide +kernel
  obtain ⟨plan, shown, last, whole, holds⟩ := exists_wholeRun (by decide) batching
  obtain ⟨planDirect, shownDirect, lastDirect, wholeDirect, alike⟩ :=
    exists_wholeRun (by decide) writing
  simp only [Bool.and_eq_true, decide_eq_true_eq] at holds alike
  obtain ⟨⟨⟨⟨⟨batched, line⟩, told⟩, queued⟩, unwatched⟩, output⟩ := holds
  have asked : planDirect.line = { plan.line with unbatched := true } := by
    rw [alike.1, line]
    rfl
  have same : reports shown = reports shownDirect := told.trans alike.2.symm
  obtain ⟨-, -, agree⟩ := batched_output whole wholeDirect asked same
  exact ⟨plan, planDirect, shown, shownDirect, last, lastDirect, whole, batched, wholeDirect, asked,
    same, queued, output, agree.mpr unwatched⟩

/-- The worker leaves before it is woken, and the line that the program writes unbatched is
missing. -/
theorem batched_output_missing :
    ∃ plan planDirect shown shownDirect last lastDirect,
      WholeRun (surroundingsOf []) plan shown last ∧ plan.settings.batched = true ∧
      WholeRun (surroundingsOf ["--no-batch"]) planDirect shownDirect lastDirect ∧
      planDirect.line = { plan.line with unbatched := true } ∧
      reports shown = reports shownDirect ∧ written shown = [] ∧
      written shownDirect = ["C /in/a.txt"] := by
  have batching : runsTo (surroundingsOf []) (batchedRun [.pass, .pass])
      (fun plan shown _ => plan.settings.batched && plan.line = lineOf false &&
        reports shown = [createdReport] && written shown = []) = true := by
    decide +kernel
  have writing : runsTo (surroundingsOf ["--no-batch"]) directRun
      (fun plan shown _ => plan.line = lineOf true && reports shown = [createdReport] &&
        written shown = ["C /in/a.txt"]) = true := by
    decide +kernel
  obtain ⟨plan, shown, last, whole, holds⟩ := exists_wholeRun (by decide) batching
  obtain ⟨planDirect, shownDirect, lastDirect, wholeDirect, alike⟩ :=
    exists_wholeRun (by decide) writing
  simp only [Bool.and_eq_true, decide_eq_true_eq] at holds alike
  obtain ⟨⟨⟨batched, line⟩, told⟩, nothing⟩ := holds
  obtain ⟨⟨lineDirect, toldDirect⟩, output⟩ := alike
  refine ⟨plan, planDirect, shown, shownDirect, last, lastDirect, whole, batched, wholeDirect, ?_,
    told.trans toldDirect.symm, nothing, output⟩
  rw [lineDirect, line]
  rfl

end FolderWatch.Watch
