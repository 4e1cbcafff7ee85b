import FolderWatch.Drain.Recorded
import FolderWatch.Session.Script

/-!
A session is a monitor with scripted recognizers, listeners and drains. Operations run to their end;
pollers run as far as they can whenever something is waited for. Only a listener that takes long is
not called for a waiting caller who already has what he waits for.
-/

namespace FolderWatch

open Session in
structure Session where
  view : DirectoryView
  workingDirectory : Path
  monitor : Option Monitor := none
  activities : List (String × ActivityScript) := []
  listeners : List (String × ListenerScript) := []
  drains : List (String × RecordedDrain Change) := []
  /-- What listeners recorded since it was last asked for, last call first. -/
  calls : List Call := []
  reached : List String := []
  opened : List String := []
  log : List LogLine := []
  result : Option (Except Fault Nat) := none

namespace Session

def noPanic {α : Type} (_ : List α) : Bool := false

def activityScript (session : Session) (tag : String) : ActivityScript :=
  (session.activities.lookup tag).getD (.builtIn .created)

def listenerScript (session : Session) (tag : String) : ListenerScript :=
  (session.listeners.lookup tag).getD {}

def meetActivity (session : Session) (tag : String) (script : ActivityScript) :
    Session × Activity :=
  let session := match session.activities.lookup tag with
    | some _ => session
    | none => { session with activities := session.activities ++ [(tag, script)] }
  (session, ⟨.held tag, (session.activityScript tag).kind⟩)

def meetListener (session : Session) (tag : String) (script : ListenerScript) : Session :=
  match session.listeners.lookup tag with
  | some _ => session
  | none =>
      { session with
        listeners := session.listeners ++ [(tag, script)]
        drains :=
          if script.style = .drain then session.drains ++ [(tag, {})] else session.drains }

def drain (session : Session) (tag : String) : RecordedDrain Change :=
  (session.drains.lookup tag).getD {}

def setDrain (session : Session) (tag : String) (drain : RecordedDrain Change) : Session :=
  { session with
    drains := session.drains.map fun (name, old) => (name, if name = tag then drain else old) }

def record (session : Session) (call : Call) : Session :=
  { session with calls := call :: session.calls }

def withMonitor (session : Session) (monitor : Monitor) : Session :=
  { session with monitor := some monitor }

/-- A step that is no operation's: it can always be taken. -/
def edit (session : Session) (monitor : Monitor) (action : Monitor.Action) : Session × Monitor :=
  match monitor.step action with
  | none => (session, monitor)
  | some (monitor, _) => (session.withMonitor monitor, monitor)

def perform (session : Session) (request : Request) : Session × Answer :=
  match session.monitor with
  | none => (session, .nothing)
  | some monitor =>
      match request with
      | .directory => (session, .path monitor.directory)
      | .delay => (session, .span monitor.delaySpan)
      | .setDelay span =>
          let (session, monitor) := session.edit monitor (.setDelay span)
          (session, .span monitor.delaySpan)
      | .describe => (session, .text monitor.description)
      | .isRunning => (session, .flag monitor.isRunning)
      | .baseline => (session, .snapshot monitor.baseline)
      | .counts => (session, .counts monitor.activities.length monitor.listeners.length)
      | .addBuiltIns =>
          let (session, monitor) := session.edit monitor .addBuiltIns
          (session, .count monitor.activities.length)
      | .addActivity tag script =>
          let (session, activity) := session.meetActivity tag script
          let (session, monitor) := session.edit monitor (.addActivity activity)
          (session, .count monitor.activities.length)
      | .removeActivity tag =>
          let (session, activity) := session.meetActivity tag (session.activityScript tag)
          let found := Registry.holds monitor.activities activity.identity
          let (session, monitor) := session.edit monitor (.removeActivity activity.identity)
          (session, .removed found monitor.activities.length)
      | .addListener tag style rules requests =>
          let session := session.meetListener tag ⟨style, rules, requests⟩
          let (session, monitor) := session.edit monitor (.addListener ⟨.held tag⟩)
          (session, .count monitor.listeners.length)
      | .removeListener tag =>
          let session := session.meetListener tag (session.listenerScript tag)
          let found := Registry.holds monitor.listeners (.held tag)
          let (session, monitor) := session.edit monitor (.removeListener (.held tag))
          (session, .removed found monitor.listeners.length)

def ask (session : Session) (requests : List Request) : Session :=
  requests.foldl (fun session request =>
    let (session, answer) := session.perform request
    session.record (.asked request answer)) session

def notify (session : Session) (tag : String) (report : Report) : Listener.Delivery Session :=
  let script := session.listenerScript tag
  match script.style with
  | .single =>
      Listener.deliver (fun session change =>
        (FailureRule.judge script.rules (FailureRule.nameOf change.path),
          (session.record (.single tag change)).ask script.requests)) report session
  | .batch =>
      ⟨FailureRule.judge script.rules "", report.changes, [],
        (session.record (.batch tag report)).ask script.requests⟩
  | .drain =>
      ⟨.accepted, report.changes, [],
        session.setDrain tag ((session.drain tag).push noPanic report.changes)⟩

def holdsFile (snapshot : Snapshot) (file : Path) : Bool :=
  snapshot.records.any fun record => record.path.endsWith file

/-- What the recognizer of a tag answers, or none while it keeps its caller waiting. -/
def consult (session : Session) (tag : String) (comparison : Comparison) :
    Session × Option (Option (List Change)) :=
  match session.activityScript tag with
  | .builtIn _ => (session, some none)
  | .custom _ behaviour =>
      match behaviour with
      | .panics => (session, some none)
      | .panicsOn file =>
          (session, some (if holdsFile comparison.after file then none else some []))
      | .silent => (session, some (some []))
      | .reversed recognizer =>
          (session, some (some (recognizer.compare comparison.before comparison.after).reverse))
      | .everything =>
          (session, some (some (comparison.before.records.map .deleted ++
            comparison.after.records.map .created)))
      | .gate file =>
          if holdsFile comparison.after file then
            ({ session with reached := tag :: session.reached },
              if tag ∈ session.opened then some (some []) else none)
          else (session, some (some []))

def hear (session : Session) (actor : Monitor.Actor) (lines : List LogLine) : Session :=
  if actor = .caller then { session with log := session.log ++ lines } else session

def signal? (session : Session) (actor : Monitor.Actor) :
    CyclePhase → Session × Option Monitor.Signal
  | .located _ => (session, some (.saw session.view))
  | .consulting activity survey =>
      match activity.identity with
      | .internal _ => (session, some (.recognized none))
      | .held tag =>
          let (session, answer) := session.consult tag survey.comparison
          (session, answer.map .recognized)
  | .delivering delivery _ _ _ =>
      match delivery.subscriber.identity with
      | .internal _ => (session, some (.handled .accepted))
      | .held tag =>
          let delivery := session.notify tag delivery.report
          (delivery.state.hear actor delivery.log, some (.handled delivery.verdict))
  | _ => (session, some .proceed)

def notice (session : Session) : Monitor.Event → Session
  | .logged actor line => session.hear actor [line]
  | .returned _ result => { session with result := some result }
  | _ => session

def take? (session : Session) (action : Monitor.Action) : Option Session := do
  let monitor ← session.monitor
  let (monitor, events) ← monitor.step action
  return events.foldl notice (session.withMonitor monitor)

def pollerPhase? (session : Session) (index : Nat) : Option PollerPhase := do
  return (← (← session.monitor).pollers[index]?).phase

/-- Takes a poller one step on. The flag tells whether it went on. A rest ends only for a stop. -/
def stepPoller (session : Session) (index : Nat) : Session × Bool :=
  match session.monitor.bind fun monitor => monitor.pollers[index]? with
  | none => (session, false)
  | some poller =>
      let (session, signal) := match poller.phase with
        | .checking => (session, some Monitor.Signal.proceed)
        | .cycling phase => session.signal? (.poller index) phase
        | .resting => (session, if poller.closed then some .leave else none)
        | .exited => (session, none)
      match signal.bind fun signal => session.take? (.go (.poller index) signal) with
      | none => (session, false)
      | some session => (session, true)

def isBeforeSlowCall (session : Session) (index : Nat) : Bool :=
  match session.pollerPhase? index with
  | some (.cycling (.delivering delivery ..)) =>
      match delivery.subscriber.identity with
      | .internal _ => false
      | .held tag => (session.listenerScript tag).isSlow delivery.report
  | _ => false

def never (_ : Session) : Bool := false

def runPollerWith (session : Session) (index : Nat) (enough : Session → Bool) : Nat → Session
  | 0 => session
  | fuel + 1 =>
      if session.isBeforeSlowCall index && enough session then session
      else
        let (session, moved) := session.stepPoller index
        if moved then session.runPollerWith index enough fuel else session

def stepsLeft (activities listeners : Nat) : CyclePhase → Nat
  | .leaving _ => 1
  | .storing .. => 2
  | .dispatching _ left _ => 2 * left.length + 3
  | .delivering _ _ left _ => 2 * left.length + 4
  | .recognizing survey => surveySteps survey
  | .consulting _ survey => surveySteps survey + 3 + 2 * survey.subscribers.length
  | _ => 2 * activities + 2 * activities * listeners + 14
where
  surveySteps (survey : Survey) : Nat :=
    2 * survey.left.length +
      2 * (survey.reports.length + survey.left.length) * survey.subscribers.length + 6

def pollerFuel (session : Session) (index : Nat) : Nat :=
  match session.monitor with
  | none => 0
  | some monitor =>
      let phase := match monitor.pollers[index]?.map Poller.phase with
        | some (.cycling phase) => phase
        | _ => .waiting
      stepsLeft monitor.activities.length monitor.listeners.length phase + 4

def runPoller (session : Session) (index : Nat) (enough : Session → Bool) : Session :=
  session.runPollerWith index enough (session.pollerFuel index)

def pollerIndexes (session : Session) : List Nat :=
  List.range ((session.monitor.map fun monitor => monitor.pollers.length).getD 0)

/-- Lets those of some pollers run that are in a cycle; the first to end lets the next one in. -/
def runCyclesOf (session : Session) (indexes : List Nat) (enough : Session → Bool) : Session :=
  let isCycling (session : Session) (index : Nat) : Bool :=
    match session.pollerPhase? index with
    | some (.cycling _) => true
    | _ => false
  indexes.foldl (fun session index =>
    if isCycling session index then session.runPoller index enough else session) session

def runCycles (session : Session) : Session :=
  session.runCyclesOf session.pollerIndexes never

/-- Ends the rest of the poller in charge and lets it run, after those that were left behind. -/
def poll (session : Session) (enough : Session → Bool) : Session :=
  let slot := session.monitor.bind Monitor.slot
  let session := session.runCyclesOf (session.pollerIndexes.filter (some · ≠ slot)) enough
  match slot with
  | none => session
  | some index =>
      let resting := match session.pollerPhase? index with
        | some .resting => true
        | _ => false
      let session :=
        if resting then (session.take? (.go (.poller index) .proceed)).getD session else session
      session.runPoller index enough

/-- The caller goes on until its operation has ended or can never end. It waits for a poller only
while that can still come to an end, and for a slow listener only if it has any time. -/
def finishWith (session : Session) : Nat → Session
  | 0 => session
  | fuel + 1 =>
      match session.monitor with
      | none => session
      | some monitor =>
          let go (session : Session) (signal : Option Monitor.Signal) : Session :=
            match signal.bind fun signal => session.take? (.go .caller signal) with
            | none => session
            | some session => session.finishWith fuel
          match monitor.control with
          | .free => session
          | .starting | .redirecting _ => go session (some (.saw session.view))
          | .joining index =>
              let session := session.runPoller index fun _ => decide (monitor.stopTimeout.nanos = 0)
              match session.pollerPhase? index with
              | some .exited => go session (some .proceed)
              | _ => go session (some .leave)
          | .scanning .waiting => go session.runCycles (some .proceed)
          | .scanning phase =>
              let (session, signal) := session.signal? .caller phase
              go session signal
          | _ => go session (some .proceed)

def operate (session : Session) (operation : Monitor.Operation) : Session :=
  match { session with result := none }.take? (.call operation) with
  | none => { session with result := none }
  | some session =>
      match session.monitor with
      | none => session
      | some monitor =>
          session.finishWith
            (stepsLeft monitor.activities.length monitor.listeners.length .waiting + 12)

def answer (session : Session) (ok : Nat → Answer) : Answer :=
  match session.result with
  | none => .stuck
  | some result => .ofResult ok result

def isSettled (session : Session) : Bool :=
  match session.monitor with
  | none => false
  | some monitor =>
      match monitor.baseline, Snapshot.capture session.view monitor.directory with
      | some baseline, .ok current => baseline.Same current
      | _, _ => false

/-- Nothing in a session that holds still takes more cycles. -/
def mostCycles : Nat := 4

def pollUntil (session : Session) (holds : Session → Bool) : Nat → Session
  | 0 => session
  | cycles + 1 => if holds session then session else (session.poll holds).pollUntil holds cycles

def dropMonitor (session : Session) : Session := { session.operate .drop with monitor := none }

def create (session : Session) (directory : Path) (settings : PollSettings) : Session × Answer :=
  match Monitor.create session.view session.workingDirectory directory settings with
  | .error fault => (session, .fault fault)
  | .ok monitor =>
      (session.dropMonitor.withMonitor monitor, .path monitor.directory)

/-- Several callers start the monitor at once; nobody hears what they log. -/
def startMany (session : Session) : Nat → Session × List (Except Fault Nat)
  | 0 => (session, [])
  | count + 1 =>
      let session := { (session.operate .start) with log := session.log }
      let (after, results) := session.startMany count
      (after, session.result.toList ++ results)

def operateDrain (session : Session) (tag : String) (operation : Drain.Operation) :
    Session × Answer :=
  let session := session.meetListener tag { style := .drain }
  let (drain, answer) := (session.drain tag).operate noPanic operation
  let session := { (session.setDrain tag drain) with log := session.log ++ answer.log }
  (session, match answer.result with
    | .ok () => .done
    | .error fault => .fault fault)

def settleDrain (session : Session) (tag : String) : Session :=
  session.setDrain tag ((session.drain tag).settle noPanic)

def drained (session : Session) (tag : String) : List (List Change) :=
  let drain := session.drain tag
  (drain.finished.drop drain.reported).map Prod.fst

def drainWait (session : Session) (tag : String) (count : Nat) (asBatches : Bool) :
    Session × Answer :=
  let session := (session.settleDrain tag).pollUntil
    (fun session => count ≤ (session.drained tag).flatten.length) mostCycles
  let batches := session.drained tag
  if count ≤ batches.flatten.length then
    let drain := session.drain tag
    (session.setDrain tag { drain with reported := drain.finished.length },
      if asBatches then .batches batches else .changes batches.flatten)
  else (session, .stuck)

def takeCalls (session : Session) : Session × List Call :=
  ({ session with calls := [] }, session.calls.reverse)

end Session

end FolderWatch
