import FolderWatch.Drain

/-!
A drain whose callback keeps a record of its calls. Its workers run as far as they can after every
operation, but a worker that was only just started looks at nothing before something is asked of it:
a stop that comes at once finds it with its queue untouched, and then it leaves. The callback panics
on some batches, and it may need a permit for each call to end.

Gathering a batch takes time too. A long one keeps its worker busy over several operations, and a stop
that cannot wait for so long gives up on it; when somebody asks for what the drain has done, all
workers run to the end.
-/

namespace FolderWatch

namespace Drain

variable {α : Type}

def pushAll (drain : Drain α) (items : List α) : Drain α :=
  { drain with queue := drain.queue ++ items }

/-- How many items a worker takes at once for its batch if there is room for only so many. -/
def within (drain : Drain α) (index room : Nat) : Nat :=
  match drain.workers[index]? with
  | some ⟨_, .taking _ left⟩ => min (min left room) drain.pending
  | _ => 0

/-- So many items at once go into the batch that a worker takes. -/
def gather (drain : Drain α) (index count : Nat) : Drain α :=
  match drain.workers[index]? with
  | some ⟨closed, .taking batch left⟩ =>
      { drain with queue := drain.queue.drop count }.setWorker index
        ⟨closed, .taking (batch ++ drain.queue.take count) (left - count)⟩
  | _ => drain

end Drain

structure RecordedDrain (α : Type) where
  drain : Drain α := {}
  gated : Bool := false
  permits : Nat := 0
  entered : List (List α) := []
  finished : List (List α × Bool) := []
  reported : Nat := 0

namespace RecordedDrain

open Drain

variable {α : Type}

/-- How many items the workers take in a millisecond. -/
def pace : Nat := 10000

def signal? (recorded : RecordedDrain α) (panics : List α → Bool) (room : Nat) (calling : Bool)
    (worker : Worker α) : Option Signal :=
  match worker.phase with
  | .waiting =>
      if worker.closed then some .leave
      else if recorded.drain.queue.isEmpty then none else some .proceed
  | .taking _ (_ + 1) =>
      if room = 0 ∧ ¬recorded.drain.queue.isEmpty then none else some .proceed
  | .holding _ => if calling then none else some .proceed
  | .calling batch =>
      if recorded.gated ∧ recorded.permits = 0 then none else some (.ended (panics batch))
  | .exited => none
  | _ => some .proceed

/-- The newest worker goes first. A worker that waits for the callback sleeps, and one that comes
for it while it passes from hand to hand has it before the sleeper is awake. -/
def next? (recorded : RecordedDrain α) (panics : List α → Bool) (room : Nat) :
    Option (Nat × Signal) := do
  let workers := recorded.drain.workers
  let signal? := recorded.signal? panics room recorded.drain.isCalling
  let ready (worker : Worker α) : Bool := (signal? worker).isSome
  let index ← if workers.getLast?.any ready then some (workers.length - 1) else workers.findIdx? ready
  return (index, ← signal? (← workers[index]?))

def record (recorded : RecordedDrain α) : Event α → RecordedDrain α
  | .began _ batch => { recorded with entered := recorded.entered ++ [batch] }
  | .ended _ batch panicked =>
      { recorded with
        finished := recorded.finished ++ [(batch, panicked)]
        permits := recorded.permits - 1 }
  | _ => recorded

def take (recorded : RecordedDrain α) (action : Action α) : RecordedDrain α × List (Event α) :=
  match recorded.drain.step action with
  | none => (recorded, [])
  | some (drain, events) => (events.foldl record { recorded with drain }, events)

/-- An item costs a worker at most so many steps. -/
def stepsPerItem : Nat := 8

/-- The workers go on, but they take no more items than there is room for. -/
def settleWith (recorded : RecordedDrain α) (panics : List α → Bool) (room : Nat) :
    Nat → RecordedDrain α
  | 0 => recorded
  | fuel + 1 =>
      match recorded.next? panics room with
      | none => recorded
      | some (index, signal) =>
          match recorded.drain.within index room with
          | 0 => (recorded.take (.work index signal)).1.settleWith panics room fuel
          | count + 1 =>
              { recorded with drain := recorded.drain.gather index (count + 1) }.settleWith panics
                (room - (count + 1)) fuel

def fuel (recorded : RecordedDrain α) : Nat :=
  stepsPerItem * (recorded.drain.pending + recorded.drain.workers.length + 1)

def settle (recorded : RecordedDrain α) (panics : List α → Bool) : RecordedDrain α :=
  recorded.settleWith panics recorded.drain.pending recorded.fuel

/-- What the workers do beside an operation that takes so many milliseconds. -/
def goOn (recorded : RecordedDrain α) (panics : List α → Bool) (millis : Nat) : RecordedDrain α :=
  recorded.settleWith panics (pace * millis) recorded.fuel

def push (recorded : RecordedDrain α) (panics : List α → Bool) (items : List α) :
    RecordedDrain α :=
  let before := recorded.goOn panics 1
  { before with drain := before.drain.pushAll items }.goOn panics 1

structure Answer where
  result : Except Fault Unit := .ok ()
  log : List LogLine := []

def Answer.read (answer : Answer) : Event α → Answer
  | .returned _ result => { answer with result }
  | .logged none line => { answer with log := answer.log ++ [line] }
  | _ => answer

/-- A stop that waits for its worker leaves all workers the time for which it waits. -/
def awaited (recorded : RecordedDrain α) (panics : List α → Bool) : RecordedDrain α :=
  match recorded.drain.control with
  | .joining _ => recorded.goOn panics (recorded.drain.stopTimeout.wholeMillis + 1)
  | _ => recorded

/-- A caller that has waited for its worker gives up unless that is gone. -/
def callerSignal (recorded : RecordedDrain α) : Signal :=
  match recorded.drain.control with
  | .joining index =>
      match recorded.drain.workers[index]? with
      | some ⟨_, .exited⟩ => .proceed
      | _ => .leave
  | _ => .proceed

/-- The caller goes on until its operation has ended. -/
def finish (recorded : RecordedDrain α) (panics : List α → Bool) (answer : Answer) :
    Nat → RecordedDrain α × Answer
  | 0 => (recorded, answer)
  | fuel + 1 =>
      let recorded := recorded.awaited panics
      match recorded.drain.control with
      | .free => (recorded, answer)
      | _ =>
          let (recorded, events) := recorded.take (.control recorded.callerSignal)
          recorded.finish panics (events.foldl Answer.read answer) fuel

def longestOperation : Nat := 8

def operate (recorded : RecordedDrain α) (panics : List α → Bool) (operation : Operation) :
    RecordedDrain α × Answer :=
  let before := if operation = .start ∧ recorded.drain.isRunning then recorded.goOn panics 1
    else recorded
  let (called, events) := before.take (.call operation)
  let (ended, answer) := called.finish panics (events.foldl Answer.read {}) longestOperation
  (if operation = .start then ended else ended.goOn panics 1, answer)

def release (recorded : RecordedDrain α) (count : Nat) : RecordedDrain α :=
  { recorded with permits := recorded.permits + count }

def report? (recorded : RecordedDrain α) (count : Nat) :
    Option (RecordedDrain α × List (List α × Bool)) :=
  if count ≤ recorded.finished.length then
    some ({ recorded with reported := recorded.finished.length },
      recorded.finished.drop recorded.reported)
  else none

end RecordedDrain

end FolderWatch
