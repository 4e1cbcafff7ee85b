import FolderWatch.Listener
import FolderWatch.Monitor.Registry
import FolderWatch.Snapshot.Capture

/-!
One scan cycle, point by point. A cycle captures the directory, has every recognizer compare the
capture with the baseline, hands what they find to every listener, and makes the capture the next
baseline. Recognizers and listeners may panic or take their time; nothing else waits for them but
the next cycle.
-/

namespace FolderWatch

structure Comparison where
  directory : Path
  before : Snapshot
  after : Snapshot

structure Delivery where
  subscriber : Subscriber
  report : Report
  deriving DecidableEq, Repr

/-- Every report to every listener: report by report, and listeners in their order. -/
def deliveries (reports : List Report) (subscribers : List Subscriber) : List Delivery :=
  reports.flatMap fun report => subscribers.map fun subscriber => ⟨subscriber, report⟩

structure Survey where
  comparison : Comparison
  subscribers : List Subscriber
  left : List Activity
  reports : List Report := []

inductive CyclePhase where
  /-- Other cycles go first. -/
  | waiting
  | entered
  | located (directory : Path)
  | captured (directory : Path) (after : Snapshot)
  /-- There is no baseline, and the first scan is to become it. -/
  | adopting (directory : Path) (after : Snapshot)
  | comparing (comparison : Comparison)
  /-- The recognizers are copied and the listeners not yet. -/
  | equipped (comparison : Comparison) (activities : List Activity)
  | recognizing (survey : Survey)
  | consulting (activity : Activity) (survey : Survey)
  | dispatching (comparison : Comparison) (left : List Delivery) (produced : Nat)
  | delivering (delivery : Delivery) (comparison : Comparison) (left : List Delivery)
      (produced : Nat)
  | storing (after : Snapshot) (produced : Nat)
  | leaving (result : Except Fault Nat)

def CyclePhase.isInside : CyclePhase → Bool
  | waiting => false
  | _ => true

namespace Monitor

inductive Signal where
  | proceed
  /-- A resting poller heeds its stop; a caller gives up waiting. -/
  | leave
  | saw (view : DirectoryView)
  | recognized (changes : Option (List Change))
  | handled (verdict : Verdict)

inductive Actor where
  | caller
  | poller (index : Nat)
  deriving DecidableEq, Repr

end Monitor

namespace Activity

/-- What a call of a recognizer comes to; the given answer counts where it is not built in. -/
def answer (activity : Activity) (comparison : Comparison) (given : Option (List Change)) :
    Option (List Change) :=
  match activity.kind with
  | .builtIn recognizer => some (recognizer.compare comparison.before comparison.after)
  | .custom _ => given

def answerLog (activity : Activity) (comparison : Comparison) (given : Option (List Change)) :
    List LogLine :=
  let before := match activity.kind with
    | .builtIn _ => Recognizer.compareLog comparison.before comparison.after
    | .custom _ => []
  let outcome := match activity.answer comparison given with
    | none =>
        [⟨.warn, "Recognizer " ++ activity.kind.name ++ " panicked; skipping it this cycle"⟩]
    | some [] => []
    | some changes =>
        [⟨.debug, activity.kind.name ++ " reported " ++ toString changes.length ++ " events"⟩]
  before ++ outcome

end Activity

namespace Survey

/-- The survey after a recognizer was called: a panic and an empty list leave no report. -/
def note (survey : Survey) (activity : Activity) (answer : Option (List Change)) : Survey :=
  match answer with
  | none | some [] => survey
  | some changes => { survey with reports := survey.reports ++ [⟨activity.kind.name, changes⟩] }

def produced (survey : Survey) : Nat := (survey.reports.flatMap Report.changes).length

end Survey

namespace CyclePhase

def adoptedLine (directory : Path) (after : Snapshot) : LogLine :=
  ⟨.debug, "Baseline of " ++ directory.display ++ " holds " ++ toString after.size ++ " files"⟩

def droppedLine (directory : Path) : LogLine :=
  ⟨.debug, "Poller for " ++ directory.display ++ " was stopped; dropping this cycle"⟩

end CyclePhase

end FolderWatch
