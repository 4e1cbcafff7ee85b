import FolderWatch.Listener

/-!
A handler of single changes is given a whole report. It is called once for each change, in order, up
to the first call that panics; failed calls are logged and counted and keep nothing from the rest.
-/

namespace FolderWatch.Listener

variable {σ : Type} {handle : σ → Change → Verdict × σ} {report : Report} {state : σ}
variable {changes : List Change}

/-- A handler's answers to changes one after the other, each in the state that the calls before it
left. -/
def heard (handle : σ → Change → Verdict × σ) (state : σ) : List Change → List (Change × Verdict)
  | [] => []
  | change :: rest =>
      let (verdict, next) := handle state change
      (change, verdict) :: heard handle next rest

def stateAfter (handle : σ → Change → Verdict × σ) (state : σ) (changes : List Change) : σ :=
  changes.foldl (fun state change => (handle state change).2) state

def failure? : Change × Verdict → Option (Change × String)
  | (change, .failed reason) => some (change, reason)
  | (_, .accepted) | (_, .panicked) => none

def failures (handle : σ → Change → Verdict × σ) (state : σ) (changes : List Change) :
    List (Change × String) :=
  (heard handle state changes).filterMap failure?

def failureLine (source : String) (failure : Change × String) : LogLine :=
  changeFailed source failure.1 failure.2

def failureLines (handle : σ → Change → Verdict × σ) (state : σ) (source : String)
    (changes : List Change) : List LogLine :=
  (failures handle state changes).map (failureLine source)

/-- No call panics. -/
def IsCalm (handle : σ → Change → Verdict × σ) (state : σ) (changes : List Change) : Prop :=
  ∀ answer ∈ heard handle state changes, answer.2 ≠ .panicked

@[simp] theorem heard_cons (change : Change) (rest : List Change) :
    heard handle state (change :: rest) =
      (change, (handle state change).1) :: heard handle (handle state change).2 rest := rfl

@[simp] theorem stateAfter_cons (change : Change) (rest : List Change) :
    stateAfter handle state (change :: rest) =
      stateAfter handle (handle state change).2 rest := rfl

@[simp] theorem failures_cons (change : Change) (rest : List Change) :
    failures handle state (change :: rest) =
      (failure? (change, (handle state change).1)).toList ++
        failures handle (handle state change).2 rest := by
  simp only [failures, heard_cons, List.filterMap_cons]
  cases failure? (change, (handle state change).1) <;> rfl

theorem isCalm_cons {change : Change} {rest : List Change} :
    IsCalm handle state (change :: rest) ↔
      (handle state change).1 ≠ .panicked ∧ IsCalm handle (handle state change).2 rest := by
  simp [IsCalm]

/-- The verdict on a report with so many failed calls. -/
def tally (report : Report) (failed : Nat) : Verdict :=
  if failed = 0 then .accepted else .failed (someFailed failed report)

/-- How the rest of a report is delivered, with so many calls failed before. -/
inductive Rest (handle : σ → Change → Verdict × σ) (report : Report) (failed : Nat) (state : σ)
    (changes : List Change) (delivery : Delivery σ) : Prop
  | whole (calm : IsCalm handle state changes)
      (made : delivery = ⟨tally report (failed + (failures handle state changes).length), changes,
        failureLines handle state report.source changes, stateAfter handle state changes⟩)
  | cut {past rest : List Change} {change : Change} (split : changes = past ++ change :: rest)
      (calm : IsCalm handle state past)
      (panics : (handle (stateAfter handle state past) change).1 = .panicked)
      (made : delivery = ⟨.panicked, past ++ [change],
        failureLines handle state report.source past,
        stateAfter handle state (past ++ [change])⟩)

/-- A call that returns leaves the rest to what comes after it. -/
theorem Rest.cons {failed : Nat} {change : Change} {rest : List Change} {verdict : Verdict}
    {next : σ} {later : Delivery σ} (answer : handle state change = (verdict, next))
    (calm : verdict ≠ .panicked)
    (delivered : Rest handle report (failed + (failure? (change, verdict)).toList.length) next rest
      later) :
    Rest handle report failed state (change :: rest) { later with
      told := change :: later.told
      log := (failure? (change, verdict)).toList.map (failureLine report.source) ++ later.log } := by
  have further {calls : List Change} (rests : IsCalm handle next calls) :
      IsCalm handle state (change :: calls) := by
    rw [isCalm_cons, answer]
    exact ⟨calm, rests⟩
  cases delivered with
  | whole rests made =>
      refine .whole (further rests) ?_
      simp [made, failureLines, answer, Nat.add_assoc]
  | @cut past left panicking split rests panics made =>
      have whole : change :: rest = (change :: past) ++ panicking :: left := by
        rw [split, List.cons_append]
      refine .cut whole (further rests) (by simpa [answer] using panics) ?_
      simp [made, failureLines, answer]

end FolderWatch.Listener
