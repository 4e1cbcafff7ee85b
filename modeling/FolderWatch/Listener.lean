import FolderWatch.Change
import FolderWatch.LogLine

/-!
Listeners are told of changes. One that only handles single changes is given the changes of a report
one by one: a failure is logged and the rest still delivered, a panic ends the delivery.
-/

namespace FolderWatch

structure Report where
  source : String
  changes : List Change
  deriving DecidableEq, Repr

inductive Verdict where
  | accepted
  | failed (reason : String)
  | panicked
  deriving DecidableEq, Repr

namespace Listener

/-- A delivery of changes one by one: how it ended, what the handler was told, the log, and the
handler's state after it. -/
structure Delivery (σ : Type) where
  verdict : Verdict
  told : List Change
  log : List LogLine
  state : σ

variable {σ : Type}

def changeFailed (source : String) (change : Change) (reason : String) : LogLine :=
  ⟨.warn, "Listener failed on " ++ change.path.display ++ " from " ++ source ++ ": " ++ reason⟩

def someFailed (failed : Nat) (report : Report) : String :=
  toString failed ++ " of " ++ toString report.changes.length ++ " events from " ++ report.source ++
    " failed"

def deliverRest (handle : σ → Change → Verdict × σ) (report : Report) (failed : Nat) (state : σ) :
    List Change → Delivery σ
  | [] => ⟨if failed = 0 then .accepted else .failed (someFailed failed report), [], [], state⟩
  | change :: rest =>
      match handle state change with
      | (.accepted, state) =>
          let after := deliverRest handle report failed state rest
          { after with told := change :: after.told }
      | (.failed reason, state) =>
          let after := deliverRest handle report (failed + 1) state rest
          { after with
            told := change :: after.told
            log := changeFailed report.source change reason :: after.log }
      | (.panicked, state) => ⟨.panicked, [change], [], state⟩

/-- Gives every change of a report to a handler, whose answers may depend on what it was told. -/
def deliver (handle : σ → Change → Verdict × σ) (report : Report) (state : σ) : Delivery σ :=
  deliverRest handle report 0 state report.changes

def rejection? (report : Report) : Verdict → Option LogLine
  | .accepted => none
  | .failed reason =>
      some ⟨.warn, "Listener failed on " ++ toString report.changes.length ++ " events from " ++
        report.source ++ ": " ++ reason⟩
  | .panicked =>
      some ⟨.warn, "Listener panicked on " ++ toString report.changes.length ++ " events from " ++
        report.source⟩

end Listener

structure FailureRule where
  /-- The file name that the rule is for; any without it. -/
  name? : Option String := none
  message : String
  /-- What was being done, from the inside out. -/
  contexts : List String := []
  panics : Bool := false
  deriving Repr

namespace FailureRule

def verdict (rule : FailureRule) : Verdict :=
  if rule.panics then .panicked
  else .failed (": ".intercalate (rule.contexts.reverse ++ [rule.message]))

def judge (rules : List FailureRule) (name : String) : Verdict :=
  match rules.find? fun rule => rule.name?.all (· = name) with
  | none => .accepted
  | some rule => rule.verdict

def nameOf (path : Path) : String := (path.fileName?.bind Utf8.text?).getD ""

end FailureRule

end FolderWatch
