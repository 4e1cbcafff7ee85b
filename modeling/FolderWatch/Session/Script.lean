import FolderWatch.Monitor

/-!
What scripted recognizers and listeners do, what can be asked of a monitor in a session, and what is
answered and recorded.
-/

namespace FolderWatch.Session

inductive Behaviour where
  | panics
  | panicsOn (file : Path)
  | silent
  /-- What a built-in recognizer finds, last change first. -/
  | reversed (recognizer : Recognizer)
  | everything
  /-- Takes until it is opened, once a file whose path ends so is there. -/
  | gate (file : Path)
  deriving Repr

inductive ActivityScript where
  | builtIn (recognizer : Recognizer)
  | custom (name : String) (behaviour : Behaviour)
  deriving Repr

def ActivityScript.kind : ActivityScript → ActivityKind
  | builtIn recognizer => .builtIn recognizer
  | custom name _ => .custom name

inductive Style where
  | single
  | batch
  | drain
  deriving DecidableEq, Repr

inductive Request where
  | directory
  | delay
  | setDelay (span : TimeSpan)
  | describe
  | isRunning
  | baseline
  | counts
  | addBuiltIns
  | addActivity (tag : String) (script : ActivityScript)
  | removeActivity (tag : String)
  | addListener (tag : String) (style : Style) (rules : List FailureRule) (requests : List Request)
  | removeListener (tag : String)

structure ListenerScript where
  style : Style := .single
  rules : List FailureRule := []
  requests : List Request := []

def manyRequests : Nat := 10000

def ListenerScript.isSlow (script : ListenerScript) (report : Report) : Bool :=
  match script.style with
  | .single => manyRequests ≤ script.requests.length * report.changes.length
  | .batch => manyRequests ≤ script.requests.length
  | .drain => false

inductive Answer where
  | nothing
  | done
  | path (path : Path)
  | span (span : TimeSpan)
  | text (text : String)
  | flag (value : Bool)
  | count (count : Nat)
  | counts (activities listeners : Nat)
  | removed (found : Bool) (count : Nat)
  | snapshot (snapshot : Option Snapshot)
  | fault (fault : Fault)
  | faults (results : List (Except Fault Nat))
  | changes (changes : List Change)
  | batches (batches : List (List Change))
  | stuck

inductive Call where
  | single (tag : String) (change : Change)
  | batch (tag : String) (report : Report)
  | asked (request : Request) (answer : Answer)

def Answer.ofResult (ok : Nat → Answer) : Except Fault Nat → Answer
  | .ok found => ok found
  | .error cause => .fault cause

end FolderWatch.Session
