import FolderWatch.RunState
import FolderWatch.TimeSpan

/-!
A drain is a queue with a worker that hands what is queued to a callback, one batch at a time. Its
producers, the caller that starts and stops it, and all workers it ever had run side by side, so a
drain is described by the single steps that each of them can take next.

A worker takes the item that wakes it, reads how many more are queued, takes that many, waits for
the callback to be free and calls it. A stop gives up waiting for its worker after a while and
leaves it to finish alone; a later start then has another worker on the same queue.
-/

namespace FolderWatch

namespace Drain

inductive WorkerPhase (α : Type) where
  | waiting
  /-- It took the first item and has not yet read how many are left. -/
  | woken (first : α)
  /-- It takes items into the batch, at most `left` more. -/
  | taking (batch : List α) (left : Nat)
  | holding (batch : List α)
  | calling (batch : List α)
  /-- The callback is done with, and whether to go on is not yet decided. -/
  | returned
  | exited
  deriving DecidableEq, Repr

structure Worker (α : Type) where
  closed : Bool := false
  phase : WorkerPhase α := .waiting
  deriving DecidableEq, Repr

namespace Worker

variable {α : Type}

def isCalling (worker : Worker α) : Bool :=
  match worker.phase with
  | .calling _ => true
  | _ => false

def held (worker : Worker α) : List α :=
  match worker.phase with
  | .woken first => [first]
  | .taking batch _ => batch
  | .holding batch => batch
  | _ => []

end Worker

/-- Where the caller is; callers wait for one another, so there is one at most. -/
inductive Control where
  | free
  | starting
  | spawned (worker : Nat)
  | started (worker : Nat)
  | stopping
  | taken (worker : Nat)
  | joining (worker : Nat)
  | parted
  deriving DecidableEq, Repr

inductive Operation where
  | start
  | stop
  /-- Giving the drain up: stops it if it runs, and does nothing else. -/
  | drop
  deriving DecidableEq, Repr

inductive Signal where
  | proceed
  /-- A waiting worker heeds the stop; a caller gives up waiting. -/
  | leave
  | ended (panicked : Bool)
  deriving DecidableEq, Repr

inductive Action (α : Type) where
  | push (item : α)
  | call (operation : Operation)
  | control (signal : Signal)
  | work (worker : Nat) (signal : Signal)
  deriving DecidableEq, Repr

inductive Event (α : Type) where
  | pushed (item : α)
  | woke (worker : Nat) (first : α)
  | counted (worker : Nat) (queued : List α)
  | began (worker : Nat) (batch : List α)
  | ended (worker : Nat) (batch : List α) (panicked : Bool)
  | logged (worker : Option Nat) (line : LogLine)
  | returned (operation : Operation) (result : Except Fault Unit)

end Drain

structure Drain (α : Type) where
  /-- The oldest item first. -/
  queue : List α := []
  workers : List (Drain.Worker α) := []
  lifecycle : Lifecycle := .initial
  /-- The worker that the next stop will stop. -/
  slot : Option Nat := none
  control : Drain.Control := .free
  stopTimeout : TimeSpan := .ofSeconds 10

namespace Drain

variable {α : Type}

def pending (drain : Drain α) : Nat := drain.queue.length

def isRunning (drain : Drain α) : Bool := drain.lifecycle.isRunning

def isCalling (drain : Drain α) : Bool := drain.workers.any Worker.isCalling

def held (drain : Drain α) : List α := drain.workers.flatMap Worker.held

def setWorker (drain : Drain α) (index : Nat) (worker : Worker α) : Drain α :=
  { drain with workers := drain.workers.set index worker }

def callbackPanicked (batch : List α) : LogLine :=
  ⟨.warn, "Batch callback panicked on a batch of " ++ toString batch.length ++ " items"⟩

def workerLeft (timeout : TimeSpan) : LogLine :=
  ⟨.warn, "batch drain worker did not stop within " ++ timeout.text ++ "; detaching it"⟩

def stepWorker (drain : Drain α) (index : Nat) (worker : Worker α) (signal : Signal) :
    Option (Drain α × List (Event α)) :=
  match worker.phase, signal with
  | .waiting, .proceed =>
      match drain.queue with
      | [] => none
      | first :: rest =>
          some ({ drain with queue := rest }.setWorker index { worker with phase := .woken first },
            [.woke index first])
  | .waiting, .leave =>
      if worker.closed then some (drain.setWorker index { worker with phase := .exited }, [])
      else none
  | .woken first, .proceed =>
      some (drain.setWorker index { worker with phase := .taking [first] drain.queue.length },
        [.counted index drain.queue])
  | .taking batch 0, .proceed =>
      some (drain.setWorker index { worker with phase := .holding batch }, [])
  | .taking batch (left + 1), .proceed =>
      match drain.queue with
      | [] => some (drain.setWorker index { worker with phase := .holding batch }, [])
      | item :: rest =>
          some ({ drain with queue := rest }.setWorker index
            { worker with phase := .taking (batch ++ [item]) left }, [])
  | .holding batch, .proceed =>
      if drain.isCalling then none
      else
        some (drain.setWorker index { worker with phase := .calling batch }, [.began index batch])
  | .calling batch, .ended panicked =>
      some (drain.setWorker index { worker with phase := .returned },
        .ended index batch panicked ::
          if panicked then [.logged (some index) (callbackPanicked batch)] else [])
  | .returned, .proceed =>
      let phase := if worker.closed then .exited else .waiting
      some (drain.setWorker index { worker with phase }, [])
  | _, _ => none

/-- A caller comes in: its operation is refused at once or goes on step by step. -/
def begin (drain : Drain α) : Operation → Drain α × List (Event α)
  | .start =>
      if drain.lifecycle.can .start then ({ drain with control := .starting }, [])
      else (drain, [.returned .start (.error (.illegalState .drainRunning))])
  | .stop =>
      if drain.lifecycle.can .stop then ({ drain with control := .stopping }, [])
      else (drain, [.returned .stop (.error (.illegalState .drainStopped))])
  | .drop =>
      if drain.isRunning then ({ drain with control := .stopping }, [])
      else (drain, [.returned .drop (.ok ())])

def finish (drain : Drain α) (operation : Operation) (result : Except Fault Unit) :
    Drain α × List (Event α) :=
  ({ drain with control := .free }, [.returned operation result])

def stepControl (drain : Drain α) (signal : Signal) : Option (Drain α × List (Event α)) :=
  match drain.control, signal with
  | .starting, .proceed =>
      some ({ drain with
        workers := drain.workers ++ [{}], control := .spawned drain.workers.length }, [])
  | .spawned worker, .proceed =>
      match drain.lifecycle.move? .start with
      | none => some (drain.finish .start (.error (drain.lifecycle.refusal .start)))
      | some lifecycle =>
          some ({ drain with lifecycle, control := .started worker },
            [.logged none (drain.lifecycle.moveLine .start lifecycle)])
  | .started worker, .proceed => some ({ drain with slot := some worker }.finish .start (.ok ()))
  | .stopping, .proceed =>
      match drain.slot with
      | none => some ({ drain with control := .parted }, [])
      | some worker => some ({ drain with slot := none, control := .taken worker }, [])
  | .taken worker, .proceed =>
      some ({ drain with
        workers := drain.workers.modify worker fun worker => { worker with closed := true }
        control := .joining worker }, [])
  | .joining index, .proceed =>
      match drain.workers[index]? with
      | some ⟨_, .exited⟩ => some ({ drain with control := .parted }, [])
      | _ => none
  | .joining _, .leave =>
      some ({ drain with control := .parted }, [.logged none (workerLeft drain.stopTimeout)])
  | .parted, .proceed =>
      match drain.lifecycle.move? .stop with
      | none => some (drain.finish .stop (.error (drain.lifecycle.refusal .stop)))
      | some lifecycle =>
          let (after, returned) := { drain with lifecycle }.finish .stop (.ok ())
          some (after, .logged none (drain.lifecycle.moveLine .stop lifecycle) :: returned)
  | _, _ => none

def step (drain : Drain α) : Action α → Option (Drain α × List (Event α))
  | .push item => some ({ drain with queue := drain.queue ++ [item] }, [.pushed item])
  | .call operation =>
      match drain.control with
      | .free => some (drain.begin operation)
      | _ => none
  | .control signal => drain.stepControl signal
  | .work index signal => do drain.stepWorker index (← drain.workers[index]?) signal

inductive Run : Drain α → List (Event α) → Drain α → Prop
  | rest (drain : Drain α) : Run drain [] drain
  | step {first middle last : Drain α} {shown more : List (Event α)} (action : Action α)
      (run : Run first shown middle) (taken : middle.step action = some (last, more)) :
      Run first (shown ++ more) last

end Drain

end FolderWatch
