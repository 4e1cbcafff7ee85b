import FolderWatch.Monitor.Cycle
import FolderWatch.RunState
import FolderWatch.Settings
import FolderWatch.Word

/-!
A monitor watches one directory. Started, it has a poller that runs a cycle, rests and begins again;
stopped, it runs single cycles when asked to. A stop gives up waiting for a poller after a while and
leaves it to finish alone, so several pollers may be about at once. All that share a monitor take
turns step by step, in any order.

A poller may publish while its generation is the current one; every start and stop moves that on. The
numbers have no bound here: a word of 64 bits does as well for fewer than `wordLimit` starts and stops.
-/

namespace FolderWatch

inductive PollerPhase where
  | checking
  | cycling (phase : CyclePhase)
  | resting
  | exited

structure Poller where
  generation : Nat
  closed : Bool := false
  phase : PollerPhase := .checking

namespace Monitor

/-- Where the caller is; callers wait for one another, so there is one at most. -/
inductive Control where
  | free
  | starting
  | startable
  | numbered (generation : Nat)
  | spawned (poller : Nat)
  | started (poller : Nat)
  | stopping
  | taken (poller : Nat)
  /-- Its generation is past. -/
  | outdated (poller : Nat)
  | joining (poller : Nat)
  | parted
  | redirecting (target : Path)
  | redirectable (target : Path)
  /-- The directory is another one, and the baseline is not yet gone. -/
  | redirected (target : Path)
  | scanning (phase : CyclePhase)

inductive Operation where
  | start
  | stop
  | setDirectory (target : Path)
  | scan
  /-- Giving the monitor up: stops it if it runs, and does nothing else. -/
  | drop
  deriving DecidableEq, Repr

inductive Action where
  | call (operation : Operation)
  | go (actor : Actor) (signal : Signal)
  | addActivity (activity : Activity)
  | addBuiltIns
  | removeActivity (identity : Identity)
  | addListener (subscriber : Subscriber)
  | removeListener (identity : Identity)
  | setDelay (span : TimeSpan)

inductive Event where
  /-- A cycle holds up all others from here on. -/
  | entered (actor : Actor)
  | recalled (actor : Actor) (baseline : Option Snapshot)
  | consulted (actor : Actor) (activity : Activity) (comparison : Comparison)
  /-- A cycle was found current and hands over its reports. -/
  | decided (actor : Actor) (comparison : Comparison) (reports : List Report)
  /-- A cycle was found out of date and ends without a word. -/
  | dropped (actor : Actor)
  | called (actor : Actor) (delivery : Delivery)
  | published (actor : Actor) (snapshot : Snapshot)
  | left (actor : Actor) (result : Except Fault Nat)
  | logged (actor : Actor) (line : LogLine)
  /-- An operation ended, a scan with the number of changes found. -/
  | returned (operation : Operation) (result : Except Fault Nat)

end Monitor

structure Monitor where
  workingDirectory : Path
  directory : Path
  /-- Milliseconds between two cycles. -/
  delay : UInt64
  firstScan : FirstScan
  stopTimeout : TimeSpan
  activities : Registry Activity := []
  listeners : Registry Subscriber := []
  serials : Nat := 0
  baseline : Option Snapshot := none
  generation : Nat := 0
  lifecycle : Lifecycle := .initial
  /-- The poller that the next stop will stop. -/
  slot : Option Nat := none
  pollers : List Poller := []
  control : Monitor.Control := .free

namespace Monitor

def create (view : DirectoryView) (workingDirectory directory : Path) (settings : PollSettings) :
    Except Fault Monitor :=
  let directory := workingDirectory.join directory
  match view.checkDirectory directory with
  | .error fault => .error fault
  | .ok () =>
      .ok {
        workingDirectory
        directory
        delay := max settings.delay 1
        firstScan := settings.firstScan
        stopTimeout := settings.stopTimeoutSpan }

def isRunning (monitor : Monitor) : Bool := monitor.lifecycle.isRunning

def delaySpan (monitor : Monitor) : TimeSpan := .ofMillis monitor.delay.toNat

/-- Whole milliseconds, at least one and at most a word. -/
def delayOf (span : TimeSpan) : UInt64 :=
  max (UInt64.ofNat (min span.wholeMillis (wordLimit - 1))) 1

def description (monitor : Monitor) : String :=
  "DirectoryMonitor \x7b stop_timeout: " ++ monitor.stopTimeout.text ++ ", .. \x7d"

def builtIns (firstSerial : Nat) : List Activity :=
  Recognizer.all.zipIdx.map fun (recognizer, index) =>
    ⟨.internal (firstSerial + index), .builtIn recognizer⟩

def isCycling (monitor : Monitor) : Bool :=
  (match monitor.control with
    | .scanning phase => phase.isInside
    | _ => false) ||
  monitor.pollers.any fun poller =>
    match poller.phase with
    | .cycling phase => phase.isInside
    | _ => false

/-- The generation an actor publishes for; a caller's cycle is of none. -/
def generationOf (monitor : Monitor) : Actor → Option Nat
  | .caller => none
  | .poller index => (monitor.pollers[index]?).map Poller.generation

def isCurrent (monitor : Monitor) (actor : Actor) : Bool :=
  (monitor.generationOf actor).all (· = monitor.generation)

structure CycleStep where
  phase : CyclePhase
  publishes : Option Snapshot := none
  shown : List Event := []

def stepCycle (monitor : Monitor) (actor : Actor) (phase : CyclePhase) (signal : Signal) :
    Option CycleStep :=
  match phase, signal with
  | .waiting, .proceed =>
      if monitor.isCycling then none else some { phase := .entered, shown := [.entered actor] }
  | .entered, .proceed => some { phase := .located monitor.directory }
  | .located directory, .saw view =>
      let shown := (Snapshot.captureLog view directory).map (.logged actor)
      match Snapshot.capture view directory with
      | .error fault => some { phase := .leaving (.error fault), shown }
      | .ok after => some { phase := .captured directory after, shown }
  | .captured directory after, .proceed =>
      let phase : CyclePhase := match monitor.baseline, monitor.firstScan with
        | some before, _ => .comparing ⟨directory, before, after⟩
        | none, .baseline => .adopting directory after
        | none, .reportExisting => .comparing ⟨directory, .empty directory, after⟩
      some { phase, shown := [.recalled actor monitor.baseline] }
  | .adopting directory after, .proceed =>
      if monitor.isCurrent actor then
        some {
          phase := .storing after 0
          shown := [.logged actor (CyclePhase.adoptedLine directory after)] }
      else some { phase := .leaving (.ok 0), shown := [.dropped actor] }
  | .comparing comparison, .proceed =>
      some { phase := .equipped comparison monitor.activities }
  | .equipped comparison activities, .proceed =>
      some { phase := .recognizing ⟨comparison, monitor.listeners, activities, []⟩ }
  | .recognizing survey, .proceed =>
      match survey.left with
      | activity :: left =>
          some {
            phase := .consulting activity { survey with left }
            shown := [.consulted actor activity survey.comparison] }
      | [] =>
          if monitor.isCurrent actor then
            some {
              phase := .dispatching survey.comparison
                (deliveries survey.reports survey.subscribers) survey.produced
              shown := [.decided actor survey.comparison survey.reports] }
          else
            some {
              phase := .leaving (.ok 0)
              shown := [.dropped actor,
                .logged actor (CyclePhase.droppedLine survey.comparison.directory)] }
  | .consulting activity survey, .recognized given =>
      some {
        phase := .recognizing (survey.note activity (activity.answer survey.comparison given))
        shown := (activity.answerLog survey.comparison given).map (.logged actor) }
  | .dispatching comparison (delivery :: left) produced, .proceed =>
      some {
        phase := .delivering delivery comparison left produced
        shown := [.called actor delivery] }
  | .dispatching comparison [] produced, .proceed =>
      some { phase := .storing comparison.after produced }
  | .delivering delivery comparison left produced, .handled verdict =>
      some {
        phase := .dispatching comparison left produced
        shown := (Listener.rejection? delivery.report verdict).toList.map (.logged actor) }
  | .storing after produced, .proceed =>
      some {
        phase := .leaving (.ok produced)
        publishes := some after
        shown := [.published actor after] }
  | _, _ => none

def publish (monitor : Monitor) (step : CycleStep) : Monitor :=
  match step.publishes with
  | none => monitor
  | some snapshot => { monitor with baseline := some snapshot }

def setPoller (monitor : Monitor) (index : Nat) (poller : Poller) : Monitor :=
  { monitor with pollers := monitor.pollers.set index poller }

def exitLine (monitor : Monitor) : LogLine :=
  ⟨.debug, "Poller for " ++ monitor.directory.display ++ " exiting"⟩

def scanSkipped (fault : Fault) : LogLine := ⟨.warn, "Scan skipped: " ++ fault.message⟩

def stepPoller (monitor : Monitor) (index : Nat) (poller : Poller) (signal : Signal) :
    Option (Monitor × List Event) :=
  let exit := some (monitor.setPoller index { poller with phase := .exited },
    [.logged (.poller index) monitor.exitLine])
  match poller.phase, signal with
  | .checking, .proceed =>
      if poller.closed then exit
      else some (monitor.setPoller index { poller with phase := .cycling .waiting }, [])
  | .cycling (.leaving result), .proceed =>
      some (monitor.setPoller index { poller with phase := .resting },
        .left (.poller index) result :: match result with
          | .error fault => [.logged (.poller index) (scanSkipped fault)]
          | .ok _ => [])
  | .cycling phase, signal => do
      let step ← monitor.stepCycle (.poller index) phase signal
      return ((monitor.publish step).setPoller index { poller with phase := .cycling step.phase },
        step.shown)
  | .resting, .proceed => some (monitor.setPoller index { poller with phase := .checking }, [])
  | .resting, .leave => if poller.closed then exit else none
  | _, _ => none

/-- A caller comes in: its operation is refused at once or goes on step by step. -/
def begin (monitor : Monitor) (operation : Operation) : Monitor × List Event :=
  let refuse (misuse : Misuse) := (monitor, [.returned operation (.error (.illegalState misuse))])
  match operation with
  | .start =>
      if monitor.lifecycle.can .start then ({ monitor with control := .starting }, [])
      else refuse .monitorRunning
  | .stop =>
      if monitor.lifecycle.can .stop then ({ monitor with control := .stopping }, [])
      else refuse .monitorStopped
  | .setDirectory target =>
      if monitor.isRunning then refuse .directoryChangeWhileRunning
      else ({ monitor with control := .redirecting target }, [])
  | .scan =>
      if monitor.isRunning then refuse .scanWhileRunning
      else ({ monitor with control := .scanning .waiting }, [])
  | .drop =>
      if monitor.isRunning then ({ monitor with control := .stopping }, [])
      else (monitor, [.returned .drop (.ok 0)])

def finish (monitor : Monitor) (operation : Operation) (result : Except Fault Nat) :
    Monitor × List Event :=
  ({ monitor with control := .free }, [.returned operation result])

def absolute (monitor : Monitor) (path : Path) : Path := monitor.workingDirectory.join path

def startedLine (monitor : Monitor) : LogLine :=
  ⟨.info, "Monitoring " ++ monitor.directory.display ++ " every " ++ monitor.delaySpan.text⟩

def stoppedLine (monitor : Monitor) : LogLine :=
  ⟨.info, "Stopped monitoring " ++ monitor.directory.display⟩

def pollerLeft (timeout : TimeSpan) : LogLine :=
  ⟨.warn, "directory poller worker did not stop within " ++ timeout.text ++ "; detaching it"⟩

def stepControl (monitor : Monitor) (signal : Signal) : Option (Monitor × List Event) :=
  match monitor.control, signal with
  | .starting, .saw view =>
      match view.checkDirectory monitor.directory with
      | .error fault => some (monitor.finish .start (.error fault))
      | .ok () => some ({ monitor with control := .startable }, [])
  | .startable, .proceed =>
      let generation := monitor.generation + 1
      some ({ monitor with generation, control := .numbered generation }, [])
  | .numbered generation, .proceed =>
      some ({ monitor with
        pollers := monitor.pollers ++ [{ generation }]
        control := .spawned monitor.pollers.length }, [])
  | .spawned poller, .proceed =>
      match monitor.lifecycle.move? .start with
      | none => some (monitor.finish .start (.error (monitor.lifecycle.refusal .start)))
      | some lifecycle =>
          some ({ monitor with lifecycle, control := .started poller },
            [.logged .caller (monitor.lifecycle.moveLine .start lifecycle)])
  | .started poller, .proceed =>
      let (after, returned) := { monitor with slot := some poller }.finish .start (.ok 0)
      some (after, .logged .caller monitor.startedLine :: returned)
  | .stopping, .proceed =>
      match monitor.slot with
      | none => some ({ monitor with control := .parted }, [])
      | some poller => some ({ monitor with slot := none, control := .taken poller }, [])
  | .taken poller, .proceed =>
      some ({ monitor with
        generation := monitor.generation + 1, control := .outdated poller }, [])
  | .outdated poller, .proceed =>
      some ({ monitor with
        pollers := monitor.pollers.modify poller fun poller => { poller with closed := true }
        control := .joining poller }, [])
  | .joining index, .proceed =>
      match monitor.pollers[index]? with
      | some ⟨_, _, .exited⟩ => some ({ monitor with control := .parted }, [])
      | _ => none
  | .joining _, .leave =>
      some ({ monitor with control := .parted },
        [.logged .caller (pollerLeft monitor.stopTimeout)])
  | .parted, .proceed =>
      match monitor.lifecycle.move? .stop with
      | none => some (monitor.finish .stop (.error (monitor.lifecycle.refusal .stop)))
      | some lifecycle =>
          let (after, returned) := { monitor with lifecycle }.finish .stop (.ok 0)
          some (after,
            .logged .caller (monitor.lifecycle.moveLine .stop lifecycle) ::
              .logged .caller monitor.stoppedLine :: returned)
  | .redirecting target, .saw view =>
      match view.checkDirectory (monitor.absolute target) with
      | .error fault => some (monitor.finish (.setDirectory target) (.error fault))
      | .ok () => some ({ monitor with control := .redirectable target }, [])
  | .redirectable target, .proceed =>
      some ({ monitor with
        directory := monitor.absolute target, control := .redirected target }, [])
  | .redirected target, .proceed =>
      some ({ monitor with baseline := none }.finish (.setDirectory target) (.ok 0))
  | .scanning (.leaving result), .proceed =>
      let (after, returned) := monitor.finish .scan result
      some (after, .left .caller result :: returned)
  | .scanning phase, signal => do
      let step ← monitor.stepCycle .caller phase signal
      return ({ monitor.publish step with control := .scanning step.phase }, step.shown)
  | _, _ => none

def step (monitor : Monitor) : Action → Option (Monitor × List Event)
  | .call operation =>
      match monitor.control with
      | .free => some (monitor.begin operation)
      | _ => none
  | .go .caller signal => monitor.stepControl signal
  | .go (.poller index) signal => do monitor.stepPoller index (← monitor.pollers[index]?) signal
  | .addActivity activity =>
      some ({ monitor with activities := monitor.activities.add activity }, [])
  | .addBuiltIns =>
      some ({ monitor with
        activities := monitor.activities ++ builtIns monitor.serials
        serials := monitor.serials + Recognizer.all.length }, [])
  | .removeActivity identity =>
      some ({ monitor with activities := monitor.activities.remove identity }, [])
  | .addListener subscriber =>
      some ({ monitor with listeners := monitor.listeners.add subscriber }, [])
  | .removeListener identity =>
      some ({ monitor with listeners := monitor.listeners.remove identity }, [])
  | .setDelay span => some ({ monitor with delay := delayOf span }, [])

/-- A run whose steps are all allowed where they are taken: its first state, what it shows, and its
last state. -/
inductive RunOf (allowed : Monitor → Action → Prop) : Monitor → List Event → Monitor → Prop
  | rest (monitor : Monitor) : RunOf allowed monitor [] monitor
  | step {first middle last : Monitor} {shown more : List Event} (action : Action)
      (run : RunOf allowed first shown middle) (may : allowed middle action)
      (taken : middle.step action = some (last, more)) : RunOf allowed first (shown ++ more) last

abbrev Run : Monitor → List Event → Monitor → Prop := RunOf fun _ _ => True

end Monitor

end FolderWatch
