import FolderWatch.Drain
import FolderWatch.Program

/-!
A program that watches: its main thread starts everything, waits for the interrupt and stops
everything, while the monitor's poller and the drain's worker take their turns. The monitor's one
listener writes a line for each change at once or, batched, leaves the changes to the drain, whose
callback writes them. When the main thread is through, nobody takes another step.
-/

namespace FolderWatch

open Program

namespace Watch

/-- Where the main thread is. -/
inductive Stage where
  | opening
  /-- The drain is being started. -/
  | arming
  /-- The monitor is being started. -/
  | starting
  | watching
  /-- The monitor is being stopped. -/
  | closing
  /-- The drain is being stopped. -/
  | draining
  | finished
  deriving DecidableEq, Repr

inductive Action where
  /-- The main thread comes to its next operation; while it watches, because of the interrupt. -/
  | advance
  | monitor (actor : Monitor.Actor) (signal : Monitor.Signal)
  | control (signal : Drain.Signal)
  | work (worker : Nat) (signal : Drain.Signal)
  /-- The listener gets to its next change. -/
  | pass
  /-- The drain's callback gets to its next change. -/
  | write

inductive Event where
  | told (report : Report)
  | wrote (line : String)

end Watch

structure Watch where
  plan : Plan
  monitor : Monitor
  drain : Drain Change := {}
  stage : Watch.Stage := .opening
  /-- What the listener was told of and has not got to. -/
  incoming : List Change := []
  /-- What the drain's callback was called with and has not got to. -/
  outgoing : List Change := []
  fault : Option Fault := none

namespace Watch

def writer : Subscriber := ⟨.held "writer"⟩

def isBatched (watch : Watch) : Bool := watch.plan.settings.batched

def ofPlan (surroundings : Surroundings) (plan : Plan) : Except EarlyExit Watch := do
  let monitor ← (Monitor.create surroundings.view surroundings.workingDirectory plan.path
    plan.settings.poll).mapError (.unwatchable plan.path)
  let monitor := { monitor with
    activities := Monitor.builtIns 0, serials := Recognizer.all.length, listeners := [writer] }
  return { plan, monitor }

def operate (watch : Watch) (operation : Monitor.Operation) (stage : Stage) : Option Watch := do
  let (monitor, _) ← watch.monitor.step (.call operation)
  return { watch with monitor, stage }

def operateDrain (watch : Watch) (operation : Drain.Operation) (stage : Stage) : Option Watch := do
  let (drain, _) ← watch.drain.step (.call operation)
  return { watch with drain, stage }

/-- The drain is left last, if there is one. -/
def leaveDrain (watch : Watch) (operation : Drain.Operation) : Option Watch :=
  if watch.isBatched then watch.operateDrain operation .draining
  else some { watch with stage := .finished }

def advance (watch : Watch) : Option Watch :=
  match watch.stage, watch.monitor.control, watch.drain.control with
  | .opening, .free, .free =>
      if watch.isBatched then watch.operateDrain .start .arming else watch.operate .start .starting
  | .arming, .free, .free => watch.operate .start .starting
  | .starting, .free, .free =>
      if watch.monitor.isRunning then some { watch with stage := .watching }
      else watch.leaveDrain .drop
  | .watching, .free, .free => watch.operate .stop .closing
  | .closing, .free, .free => watch.leaveDrain .stop
  | .draining, .free, .free => some { watch with stage := .finished }
  | _, _, _ => none

def notice (watch : Watch) : Monitor.Event → Watch
  | .called _ delivery => { watch with incoming := watch.incoming ++ delivery.report.changes }
  | .returned _ (.error fault) => { watch with fault := some fault }
  | _ => watch

def tellings (events : List Monitor.Event) : List Event :=
  events.filterMap fun event =>
    match event with
    | .called _ delivery => some (.told delivery.report)
    | _ => none

/-- A listener returns when it has got to every change, and it accepts them all. -/
def returns (watch : Watch) : Monitor.Signal → Bool
  | .handled verdict => verdict = .accepted ∧ watch.incoming = []
  | _ => true

/-- So does the drain's callback. -/
def callbackReturns (watch : Watch) : Drain.Signal → Bool
  | .ended panicked => panicked = false ∧ watch.outgoing = []
  | _ => true

def takeUp (outgoing : List Change) : Drain.Event Change → List Change
  | .began _ batch => outgoing ++ batch
  | _ => outgoing

def writings (plan : Plan) (change : Change) : List Event :=
  (plan.line? change).toList.map .wrote

def step (watch : Watch) (action : Action) : Option (Watch × List Event) :=
  match watch.stage, action with
  | .finished, _ => none
  | _, .advance => watch.advance.map fun watch => (watch, [])
  | _, .monitor actor signal =>
      if watch.returns signal then do
        let (monitor, events) ← watch.monitor.step (.go actor signal)
        return (events.foldl notice { watch with monitor }, tellings events)
      else none
  | _, .control signal => do
      let (drain, _) ← watch.drain.step (.control signal)
      return ({ watch with drain }, [])
  | _, .work worker signal =>
      if watch.callbackReturns signal then do
        let (drain, events) ← watch.drain.step (.work worker signal)
        return ({ watch with drain, outgoing := events.foldl takeUp watch.outgoing }, [])
      else none
  | _, .pass =>
      match watch.incoming with
      | [] => none
      | change :: incoming =>
          if watch.isBatched then do
            let (drain, _) ← watch.drain.step (.push change)
            return ({ watch with drain, incoming }, [])
          else some ({ watch with incoming }, writings watch.plan change)
  | _, .write =>
      match watch.outgoing with
      | [] => none
      | change :: outgoing => some ({ watch with outgoing }, writings watch.plan change)

def written (shown : List Event) : List String :=
  shown.filterMap fun event =>
    match event with
    | .told _ => none
    | .wrote line => some line

/-! Everybody goes on as far as possible while the directory looks as it does. -/

def cycleSignal (view : DirectoryView) : CyclePhase → Monitor.Signal
  | .located _ => .saw view
  | .consulting .. => .recognized none
  | .delivering .. => .handled .accepted
  | _ => .proceed

def pollerSignal (view : DirectoryView) : PollerPhase → Monitor.Signal
  | .cycling phase => cycleSignal view phase
  | .resting => .leave
  | _ => .proceed

def callerSignal (view : DirectoryView) : Monitor.Control → Monitor.Signal
  | .starting => .saw view
  | _ => .proceed

def workerSignals : Drain.WorkerPhase Change → List Drain.Signal
  | .waiting => [.proceed, .leave]
  | .calling _ => [.ended false]
  | _ => [.proceed]

def candidates (watch : Watch) (view : DirectoryView) : List Action :=
  [.write, .pass] ++
  (watch.drain.workers.zipIdx.flatMap fun (worker, index) =>
    (workerSignals worker.phase).map (.work index)) ++
  (watch.monitor.pollers.zipIdx.map fun (poller, index) =>
    .monitor (.poller index) (pollerSignal view poller.phase)) ++
  [.monitor .caller (callerSignal view watch.monitor.control), .control .proceed] ++
  if watch.stage = .watching then [] else [.advance]

def next? (watch : Watch) (view : DirectoryView) : Option (Watch × List Event) :=
  (watch.candidates view).findSome? watch.step

def settleWith (view : DirectoryView) : Nat → Watch → Watch × List Event
  | 0, watch => (watch, [])
  | fuel + 1, watch =>
      match watch.next? view with
      | none => (watch, [])
      | some (watch, shown) =>
          let (watch, more) := watch.settleWith view fuel
          (watch, shown ++ more)

/-- A change costs no more steps than this, and neither does all that is no change's. -/
def stepsPerChange : Nat := 16
def stepsBesides : Nat := 128

def changesAtMost (watch : Watch) (view : DirectoryView) : Nat :=
  let listed := match view.list watch.monitor.directory with
    | .ok listing => listing.length
    | .error _ => 0
  let known := (watch.monitor.baseline.map Snapshot.size).getD 0
  listed + known + watch.incoming.length + watch.outgoing.length + watch.drain.pending +
    watch.drain.held.length

def settle (watch : Watch) (view : DirectoryView) : Watch × List Event :=
  watch.settleWith view (stepsPerChange * watch.changesAtMost view + stepsBesides)

/-- The next step of a watch after one that somebody is free to take. -/
def settleAfter (watch : Watch) (view : DirectoryView) (action : Action) : Watch × List Event :=
  match watch.step action with
  | none => watch.settle view
  | some (watch, shown) =>
      let (watch, more) := watch.settle view
      (watch, shown ++ more)

/-- The poller's rest is over. -/
def poll (watch : Watch) (view : DirectoryView) : Watch × List Event :=
  match watch.monitor.slot with
  | none => watch.settle view
  | some poller => watch.settleAfter view (.monitor (.poller poller) .proceed)

def interrupt (watch : Watch) (view : DirectoryView) : Watch × List Event :=
  watch.settleAfter view .advance

end Watch

end FolderWatch
