/-!
A machine that several actors take forward, step by step and in any order. One of them is the
caller: its operations come one after another, and the step that ends one shows how it ended. The
steps of failed operations can be taken out of a course, and if such an operation leaves everything
as it was, the rest is a course with the same end.
-/

namespace FolderWatch

structure Machine (σ α ε : Type) where
  step : σ → α → Option (σ × List ε)
  isCallers : α → Bool
  /-- Of an event that ends an operation, whether this failed. -/
  failed? : ε → Option Bool

namespace Machine

variable {σ α ε : Type} (machine : Machine σ α ε)

/-- The steps that lead from one state to another, each with what it shows. -/
inductive Course : σ → List (α × List ε) → σ → Prop
  | rest (state : σ) : Course state [] state
  | step {first middle last : σ} {action : α} {shown : List ε} {later : List (α × List ε)}
      (taken : machine.step first action = some (middle, shown))
      (course : Course middle later last) : Course first ((action, shown) :: later) last

def replay : σ → List α → Option (List (α × List ε) × σ)
  | state, [] => some ([], state)
  | state, action :: rest => do
      let (next, shown) ← machine.step state action
      let (later, last) ← replay next rest
      return ((action, shown) :: later, last)

theorem course_of_replay {first last : σ} {actions : List α} {steps : List (α × List ε)}
    (replayed : machine.replay first actions = some (steps, last)) :
    machine.Course first steps last := by
  induction actions generalizing first steps with
  | nil =>
      cases replayed
      exact .rest last
  | cons action rest ih =>
      simp only [replay, Option.bind_eq_bind, Option.bind_eq_some_iff] at replayed
      obtain ⟨⟨next, shown⟩, taken, ⟨later, final⟩, goesOn, same⟩ := replayed
      cases same
      exact .step taken (ih goesOn)

theorem exists_course (first : σ) (actions : List α) (check : List (α × List ε) → Bool)
    (checked : ((machine.replay first actions).any fun (steps, _) => check steps) = true) :
    ∃ steps last, machine.Course first steps last ∧ check steps = true := by
  obtain ⟨⟨steps, last⟩, replayed, holds⟩ := (Option.any_eq_true ..).mp checked
  exact ⟨steps, last, machine.course_of_replay replayed, holds⟩

/-- Whether the first operation to end fails. -/
def fails (steps : List (α × List ε)) : Bool :=
  (steps.findSome? fun (_, shown) => shown.findSome? machine.failed?).getD false

/-- The caller's operations do not overlap, so that each of its steps is of the operation that ends
next. -/
def isOfFailed (step : α × List ε) (later : List (α × List ε)) : Bool :=
  machine.isCallers step.1 && machine.fails (step :: later)

def withoutFailed : List (α × List ε) → List (α × List ε)
  | [] => []
  | step :: later =>
      if machine.isOfFailed step later then withoutFailed later
      else step :: withoutFailed later

/-- What there is to know of single steps. An operation is under way in the `busy` states. A `blank`
state is one in which no operation has done anything yet, and `idle` forgets the one under way. -/
structure Forgets (holds busy blank : σ → Prop) (idle : σ → σ) (quiet : ε → Prop) : Prop where
  keeps : ∀ {state after : σ} {action : α} {shown : List ε}, holds state →
    machine.step state action = some (after, shown) → holds after
  idle_of_free : ∀ {state : σ}, ¬busy state → idle state = state
  aside : ∀ {state after : σ} {action : α} {shown : List ε}, machine.isCallers action = false →
    machine.step state action = some (after, shown) →
      shown.findSome? machine.failed? = none ∧ (busy after ↔ busy state) ∧
        (blank after → blank state ∧
          machine.step (idle state) action = some (idle after, shown))
  goesOn : ∀ {state after : σ} {action : α} {shown : List ε}, machine.isCallers action = true →
    holds state → machine.step state action = some (after, shown) →
      shown.findSome? machine.failed? = none →
        busy after ∧
          (blank after → blank state ∧ idle after = idle state ∧ ∀ event ∈ shown, quiet event)
  ends : ∀ {state after : σ} {action : α} {shown : List ε} {failed : Bool},
    machine.isCallers action = true → holds state →
      machine.step state action = some (after, shown) →
        shown.findSome? machine.failed? = some failed →
          ¬busy after ∧ (failed = true →
            blank state ∧ idle state = after ∧ ∀ event ∈ shown, quiet event)

variable {machine} {holds busy blank : σ → Prop} {idle : σ → σ} {quiet : ε → Prop}
variable {first middle last : σ} {action : α} {shown : List ε} {steps later : List (α × List ε)}

theorem fails_cons_of_none (unended : shown.findSome? machine.failed? = none) :
    machine.fails ((action, shown) :: later) = machine.fails later := by
  simp [fails, unended]

theorem fails_cons_of_some {failed : Bool} (ended : shown.findSome? machine.failed? = some failed) :
    machine.fails ((action, shown) :: later) = failed := by
  simp [fails, ended]

/-- What taking out failed operations leaves, from a state in which one may be under way. -/
def Leaves (machine : Machine σ α ε) (busy blank : σ → Prop) (idle : σ → σ) (first : σ)
    (steps : List (α × List ε)) (last : σ) : Prop :=
  (busy first → machine.fails steps = true →
      blank first ∧ machine.Course (idle first) (machine.withoutFailed steps) last) ∧
    (¬busy first ∨ machine.fails steps = false →
      machine.Course first (machine.withoutFailed steps) last)

theorem Forgets.leaves_aside (forgets : machine.Forgets holds busy blank idle quiet)
    (aside : machine.isCallers action = false)
    (taken : machine.step first action = some (middle, shown))
    (leaves : machine.Leaves busy blank idle middle later last) :
    machine.Leaves busy blank idle first ((action, shown) :: later) last := by
  obtain ⟨unended, same, back⟩ := forgets.aside aside taken
  have kept : machine.withoutFailed ((action, shown) :: later) =
      (action, shown) :: machine.withoutFailed later := by
    simp [withoutFailed, isOfFailed, aside]
  unfold Leaves
  rw [kept, fails_cons_of_none unended]
  constructor
  · intro busy fails
    obtain ⟨blank, course⟩ := leaves.1 (same.mpr busy) fails
    obtain ⟨before, again⟩ := back blank
    exact ⟨before, .step again course⟩
  · intro free
    exact .step taken (leaves.2 (free.imp_left (mt same.mp)))

theorem Forgets.leaves_callers (forgets : machine.Forgets holds busy blank idle quiet)
    (callers : machine.isCallers action = true) (held : holds first)
    (taken : machine.step first action = some (middle, shown))
    (leaves : machine.Leaves busy blank idle middle later last) :
    machine.Leaves busy blank idle first ((action, shown) :: later) last := by
  have forgotten (course : machine.Course (idle first) (machine.withoutFailed later) last)
      (free : ¬busy first) : machine.Course first (machine.withoutFailed later) last := by
    rwa [forgets.idle_of_free free] at course
  unfold Leaves
  simp only [withoutFailed, isOfFailed, callers, Bool.true_and]
  cases ended : shown.findSome? machine.failed? with
  | none =>
      obtain ⟨under, back⟩ := forgets.goesOn callers held taken ended
      rw [fails_cons_of_none ended]
      cases fails : machine.fails later with
      | true =>
          obtain ⟨blank, course⟩ := leaves.1 under fails
          obtain ⟨before, same, -⟩ := back blank
          rw [same] at course
          exact ⟨fun _ _ => ⟨before, course⟩, fun free => forgotten course (by simpa using free)⟩
      | false => exact ⟨by simp, fun _ => .step taken (leaves.2 (.inr fails))⟩
  | some failed =>
      obtain ⟨free, back⟩ := forgets.ends callers held taken ended
      rw [fails_cons_of_some ended]
      have course := leaves.2 (.inl free)
      cases failed with
      | true =>
          obtain ⟨before, same, -⟩ := back rfl
          rw [← same] at course
          exact ⟨fun _ _ => ⟨before, course⟩, fun free => forgotten course (by simpa using free)⟩
      | false => exact ⟨by simp, fun _ => .step taken course⟩

theorem Forgets.leaves (forgets : machine.Forgets holds busy blank idle quiet) (held : holds first)
    (course : machine.Course first steps last) :
    machine.Leaves busy blank idle first steps last := by
  induction course with
  | rest state => exact ⟨by simp [fails], fun _ => .rest state⟩
  | @step first middle last action shown later taken course ih =>
      have leaves := ih (forgets.keeps held taken)
      cases callers : machine.isCallers action with
      | true => exact forgets.leaves_callers callers held taken leaves
      | false => exact forgets.leaves_aside callers taken leaves

/-- The step was taken where the course had got to, changed nothing but the operation under way, and
showed nothing but what is quiet. -/
def LeavesNothing (machine : Machine σ α ε) (idle : σ → σ) (quiet : ε → Prop) (first : σ)
    (past : List (α × List ε)) (step : α × List ε) (later : List (α × List ε)) (last : σ) : Prop :=
  ∃ before after, machine.Course first past before ∧
    machine.step before step.1 = some (after, step.2) ∧ machine.Course after later last ∧
    idle after = idle before ∧ ∀ event ∈ step.2, quiet event

theorem Forgets.leavesNothing (forgets : machine.Forgets holds busy blank idle quiet)
    (held : holds first) (course : machine.Course first steps last)
    {past later : List (α × List ε)} {step : α × List ε} (split : steps = past ++ step :: later)
    (failed : machine.isOfFailed step later = true) :
    machine.LeavesNothing idle quiet first past step later last := by
  induction past generalizing first steps with
  | nil =>
      subst split
      obtain ⟨action, shown⟩ := step
      cases course with
      | @step _ middle _ _ _ _ taken course =>
      simp only [isOfFailed, Bool.and_eq_true] at failed
      refine ⟨first, middle, .rest first, taken, course, ?_⟩
      cases ended : shown.findSome? machine.failed? with
      | none =>
          obtain ⟨under, back⟩ := forgets.goesOn failed.1 held taken ended
          rw [fails_cons_of_none ended] at failed
          have leaves := forgets.leaves (forgets.keeps held taken) course
          exact (back (leaves.1 under failed.2).1).2
      | some how =>
          rw [fails_cons_of_some ended] at failed
          obtain ⟨free, back⟩ := forgets.ends failed.1 held taken ended
          obtain ⟨-, same, quiet⟩ := back failed.2
          exact ⟨(forgets.idle_of_free free).trans same.symm, quiet⟩
  | cons head past ih =>
      subst split
      cases course with
      | @step _ middle _ action shown _ taken course =>
      obtain ⟨before, after, reached, rest⟩ := ih (forgets.keeps held taken) course rfl
      exact ⟨before, after, .step taken reached, rest⟩

end Machine

end FolderWatch
