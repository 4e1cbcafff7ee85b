import FolderWatch.Proofs.Drain.Callers
import FolderWatch.Proofs.Drain.Conservation

/-!
While every stop waits for its worker, a drain hands its items over in the order in which they were
pushed. Each batch starts with the item that woke the worker and goes on with all that was queued
when the worker read the length, whatever is pushed meanwhile.
-/

namespace FolderWatch.Drain

open Trace

variable {α : Type} {drain after : Drain α} {shown more : List (Event α)}

/-- A push, or of the caller's doing. -/
def Event.IsAside : Event α → Prop
  | .pushed _ => True
  | event => event.IsCallers

theorem IsAside.handed {between : List (Event α)} (aside : ∀ event ∈ between, event.IsAside) :
    handedBatches between = [] := by
  simp only [handedBatches, List.filterMap_eq_nil_iff]
  intro event member
  have isAside := aside event member
  cases event <;> simp_all [Event.IsAside, Event.IsCallers]

/-- How the trace accounts for a batch: its worker woke with the first item, and when it read the
length, all the rest and nothing else had been pushed and not yet handed over. -/
inductive Gathered (worker : Nat) (batch : List α) : List (Event α) → Prop
  | intro {before between later : List (Event α)} {first : α} {queued : List α}
      (whole : batch = first :: queued) (waking : ∀ event ∈ between, event.IsAside)
      (counting : ∀ event ∈ later, event.IsAside)
      (exact : pushedItems (before ++ between) =
        (handedBatches before).flatten ++ first :: queued) :
      Gathered worker batch
        (before ++ .woke worker first :: between ++ .counted worker queued :: later)

theorem Gathered.aside {worker : Nat} {batch : List α} (gathered : Gathered worker batch shown)
    (aside : ∀ event ∈ more, event.IsAside) : Gathered worker batch (shown ++ more) := by
  obtain ⟨whole, waking, counting, exact⟩ := gathered
  rename_i before between later first queued
  have joined : before ++ .woke worker first :: between ++ .counted worker queued :: later ++ more =
      before ++ .woke worker first :: between ++ .counted worker queued :: (later ++ more) := by
    simp
  rw [joined]
  refine .intro whole waking ?_ exact
  intro event member
  rcases List.mem_append.mp member with old | new
  · exact counting event old
  · exact aside event new

/-- What the trace tells of a worker between its waking and its call. -/
def Gathers (queue : List α) (index : Nat) (past : List (Event α)) : WorkerPhase α → Prop
  | .woken first => ∃ before between, past = before ++ .woke index first :: between ∧
      ∀ event ∈ between, event.IsAside
  | .taking batch left => left ≤ queue.length ∧ Gathered index (batch ++ queue.take left) past
  | .holding batch => Gathered index batch past
  | _ => True

theorem Gathers.aside {queue pushed : List α} {index : Nat} {phase : WorkerPhase α}
    (gathers : Gathers queue index shown phase) (aside : ∀ event ∈ more, event.IsAside) :
    Gathers (queue ++ pushed) index (shown ++ more) phase := by
  cases phase with
  | woken first =>
      obtain ⟨before, between, rfl, quiet⟩ := gathers
      refine ⟨before, between ++ more, by simp, ?_⟩
      intro event member
      rcases List.mem_append.mp member with old | new
      · exact quiet event old
      · exact aside event new
  | taking batch left =>
      obtain ⟨enough, gathered⟩ := gathers
      refine ⟨by simp; omega, ?_⟩
      rw [List.take_append_of_le_length enough]
      exact gathered.aside aside
  | holding batch => exact Gathered.aside gathers aside
  | waiting | calling | returned | exited => trivial

theorem held_of_sole {workers : List (Worker α)} {index : Nat} {worker : Worker α}
    (here : workers[index]? = some worker)
    (others : ∀ other (idle : Worker α), workers[other]? = some idle → other ≠ index →
      idle.held = []) :
    workers.flatMap Worker.held = worker.held := by
  induction workers generalizing index with
  | nil => simp at here
  | cons head rest ih =>
      cases index with
      | zero =>
          simp only [List.getElem?_cons_zero, Option.some.injEq] at here
          subst head
          have nothing : rest.flatMap Worker.held = [] := by
            simp only [List.flatMap_eq_nil_iff]
            intro idle member
            obtain ⟨other, found⟩ := List.mem_iff_getElem?.mp member
            exact others (other + 1) idle (by simpa using found) (by omega)
          simp [nothing]
      | succ index =>
          have within : rest[index]? = some worker := by simpa using here
          have tail : rest.flatMap Worker.held = worker.held := by
            refine ih within ?_
            intro other idle found different
            exact others (other + 1) idle (by simpa using found) (by omega)
          rw [List.flatMap_cons, tail, others 0 head rfl (by omega), List.nil_append]

/-- What was handed over, what is held and what is queued, one after another, is what was pushed. -/
def Sequenced (past : List (Event α)) (drain : Drain α) : Prop :=
  (handedBatches past).flatten ++ drain.held ++ drain.queue = pushedItems past

theorem Sequenced.push (sequenced : Sequenced shown drain) (item : α) :
    Sequenced (shown ++ [.pushed item]) { drain with queue := drain.queue ++ [item] } := by
  simp only [Sequenced] at sequenced ⊢
  simp only [handedBatches_append, pushedItems_append, ← sequenced]
  simp [handedBatches, pushedItems, held]

theorem Sequenced.acts (sequenced : Sequenced shown drain) (queue : after.queue = drain.queue)
    (workers : WorkersMove drain.workers after.workers)
    (callers : ∀ event ∈ more, event.IsCallers) : Sequenced (shown ++ more) after := by
  rw [Sequenced, handedBatches_append, pushedItems_append, handedBatches_of_callers callers,
    pushedItems_of_callers callers, queue, held, workers.held]
  simpa [Sequenced, held] using sequenced

theorem Sequenced.works {index : Nat} {worker : Worker α} {phase : WorkerPhase α} {queue : List α}
    (sequenced : Sequenced shown drain) (here : drain.workers[index]? = some worker)
    (others : ∀ other (idle : Worker α), drain.workers[other]? = some idle → other ≠ index →
      idle.held = [])
    (move : WorkerMove drain index worker phase queue more) :
    Sequenced (shown ++ more)
      { drain with queue, workers := drain.workers.set index { worker with phase } } := by
  obtain ⟨below, -⟩ := List.getElem?_eq_some_iff.mp here
  have set : (drain.workers.set index { worker with phase })[index]? =
      some { worker with phase } := by simp [below]
  have othersSet : ∀ other (idle : Worker α),
      (drain.workers.set index { worker with phase })[other]? = some idle → other ≠ index →
        idle.held = [] := by
    intro other idle found different
    rw [List.getElem?_set_ne (Ne.symm different)] at found
    exact others other idle found different
  have passed := move.held_queue
  simp only [Sequenced, held] at sequenced ⊢
  rw [held_of_sole here others] at sequenced
  rw [held_of_sole set othersSet, handedBatches_append, pushedItems_append, move.pushedItems,
    ← sequenced, List.flatten_append, List.append_nil]
  simp only [List.append_assoc] at passed ⊢
  rw [passed]

/-- The drain and its trace: nothing is out of order, and the worker at work is gathering a batch. -/
structure InOrder (past : List (Event α)) (drain : Drain α) : Prop where
  sequence : (handedBatches past).flatten ++ drain.held ++ drain.queue = pushedItems past
  gathers : ∀ index worker, drain.workers[index]? = some worker →
    Gathers drain.queue index past worker.phase

theorem InOrder.push (inOrder : InOrder shown drain) (item : α) :
    InOrder (shown ++ [.pushed item]) { drain with queue := drain.queue ++ [item] } := by
  refine ⟨Sequenced.push inOrder.sequence item, ?_⟩
  intro index worker here
  exact (inOrder.gathers index worker here).aside (by simp [Event.IsAside])

theorem IsAside.of_callers (callers : ∀ event ∈ more, event.IsCallers) :
    ∀ event ∈ more, event.IsAside := by
  intro event member
  have isCallers := callers event member
  cases event <;> simp_all [Event.IsAside, Event.IsCallers]

theorem WorkersMove.phase {workers next : List (Worker α)} (move : WorkersMove workers next)
    {index : Nat} {worker : Worker α} (here : next[index]? = some worker) :
    worker.phase = .waiting ∨ ∃ before, workers[index]? = some before ∧
      before.phase = worker.phase := by
  cases move with
  | kept => exact .inr ⟨worker, here, rfl⟩
  | spawned =>
      rw [getElem?_append_one] at here
      split at here
      · cases here
        exact .inl rfl
      · exact .inr ⟨worker, here, rfl⟩
  | closed leaver =>
      rw [List.getElem?_modify] at here
      right
      cases was : workers[index]? with
      | none => simp [was] at here
      | some before =>
          refine ⟨before, rfl, ?_⟩
          simp only [was, Option.map_eq_map, Option.map_some, Option.some.injEq] at here
          split at here <;> rw [← here]

theorem InOrder.acts (inOrder : InOrder shown drain) (queue : after.queue = drain.queue)
    (workers : WorkersMove drain.workers after.workers)
    (callers : ∀ event ∈ more, event.IsCallers) : InOrder (shown ++ more) after := by
  refine ⟨Sequenced.acts inOrder.sequence queue workers callers, ?_⟩
  intro index worker here
  rw [queue]
  rcases workers.phase here with fresh | ⟨before, was, same⟩
  · rw [fresh]
    trivial
  · rw [← same]
    have gathers : Gathers (drain.queue ++ []) index (shown ++ more) before.phase :=
      (inOrder.gathers index before was).aside (IsAside.of_callers callers)
    simpa using gathers

theorem InOrder.works {index : Nat} {worker : Worker α} {phase : WorkerPhase α} {queue : List α}
    (inOrder : InOrder shown drain) (here : drain.workers[index]? = some worker)
    (others : ∀ other (idle : Worker α), drain.workers[other]? = some idle → other ≠ index →
      idle.phase = .exited)
    (move : WorkerMove drain index worker phase queue more) :
    InOrder (shown ++ more)
      { drain with queue, workers := drain.workers.set index { worker with phase } } := by
  have nothing : ∀ other (idle : Worker α), drain.workers[other]? = some idle → other ≠ index →
      idle.held = [] := by
    intro other idle found different
    simp [Worker.held, others other idle found different]
  refine ⟨Sequenced.works inOrder.sequence here nothing move, ?_⟩
  have sequence := inOrder.sequence
  rw [held, held_of_sole here nothing] at sequence
  have gathers := inOrder.gathers index worker here
  intro other idle found
  rw [List.getElem?_set] at found
  split at found
  · rename_i same
    subst other
    obtain ⟨-, rfl⟩ : index < drain.workers.length ∧ { worker with phase } = idle := by
      simpa using found
    cases move with
    | wakes => exact ⟨shown, [], by simp, by simp⟩
    | @counts first was =>
        rw [was] at gathers
        obtain ⟨before, between, rfl, waking⟩ := gathers
        refine ⟨Nat.le_refl _, ?_⟩
        rw [List.take_length]
        refine .intro rfl waking (by simp) ?_
        have handed := IsAside.handed waking
        simp only [Worker.held, was, handedBatches_append, pushedItems_append] at sequence
        simp only [handedBatches, pushedItems, List.filterMap_cons] at sequence handed ⊢
        simpa [handed] using sequence.symm
    | @completes batch left was done =>
        rw [was] at gathers
        obtain ⟨-, gathered⟩ := gathers
        have nothing : drain.queue.take left = [] := by
          rcases done with rfl | empty
          · rfl
          · simp [empty]
        simpa [Gathers, nothing] using gathered
    | @takes batch rest left item was queued =>
        rw [was, queued] at gathers
        obtain ⟨enough, gathered⟩ := gathers
        refine ⟨by simpa using enough, ?_⟩
        simpa using gathered
    | turns =>
        cases worker.closed <;> trivial
    | heeds | calls | returns => trivial
  · rename_i different
    rw [others other idle found (Ne.symm different)]
    trivial

theorem InOrder.step {action : Action α} (inOrder : InOrder shown drain) (sole : Sole drain)
    (taken : drain.step action = some (after, more)) : InOrder (shown ++ more) after := by
  cases step_move taken with
  | pushes item => exact inOrder.push item
  | acts queue workers callers => exact inOrder.acts queue workers callers
  | @works index worker phase queue _ here move =>
      refine inOrder.works here ?_ move
      -- The worker that moves is not gone, so it is the one in charge.
      have charged : drain.control.charge drain.slot = some index := by
        by_cases charged : drain.control.charge drain.slot = some index
        · exact charged
        · exact absurd (sole index worker here charged) move.not_exited
      intro other idle found different
      refine sole other idle found ?_
      rw [charged]
      intro same
      exact different (Option.some.inj same).symm

theorem PatientRun.inOrder {stopTimeout : TimeSpan} {last : Drain α}
    (run : PatientRun { stopTimeout } shown last) : InOrder shown last := by
  induction run with
  | rest => exact ⟨rfl, by simp⟩
  | step action run waits taken ih => exact ih.step run.sole taken

def BatchesGathered (past : List (Event α)) : Event α → Prop
  | .began worker batch => Gathered worker batch past
  | _ => True

theorem InOrder.batches {action : Action α} (inOrder : InOrder shown drain)
    (taken : drain.step action = some (after, more)) :
    Always (fun past => BatchesGathered (shown ++ past)) more := by
  cases step_move taken with
  | pushes item => exact always_singleton.mpr trivial
  | acts queue workers callers =>
      refine .of_forall fun past event member => ?_
      have isCallers := callers event member
      cases event <;> simp_all [Event.IsCallers, BatchesGathered]
  | @works index worker phase queue _ here move =>
      have gathers := inOrder.gathers index worker here
      cases move with
      | wakes | counts => exact always_singleton.mpr trivial
      | heeds | completes | takes | turns => exact .nil _
      | @calls batch was =>
          rw [was] at gathers
          have gathered : Gathered index batch (shown ++ []) := by
            rw [List.append_nil]
            exact gathers
          exact always_singleton.mpr gathered
      | returns panicked =>
          refine .of_forall fun past event member => ?_
          cases panicked <;> simp_all [BatchesGathered]
          rcases member with rfl | rfl <;> trivial

theorem PatientRun.batches {stopTimeout : TimeSpan} {last : Drain α}
    (run : PatientRun { stopTimeout } shown last) : Always BatchesGathered shown := by
  induction run with
  | rest => exact .nil _
  | step action run waits taken ih => exact ih.append (run.inOrder.batches taken)

theorem Gathered.not_empty {worker : Nat} {batch : List α}
    (gathered : Gathered worker batch shown) : batch ≠ [] := by
  cases gathered with
  | intro whole => simp [whole]

/-- Batches are not empty, and one after another, with what a worker holds and what is queued after
them, they are the items pushed. Each ends where the queue ended when its worker read the length. -/
theorem batches_exact {stopTimeout : TimeSpan} {last : Drain α}
    (run : PatientRun { stopTimeout } shown last) :
    (handedBatches shown).flatten ++ last.held ++ last.queue = pushedItems shown ∧
      (∀ batch ∈ handedBatches shown, batch ≠ []) ∧ Always BatchesGathered shown := by
  have batches := run.batches
  refine ⟨run.inOrder.sequence, ?_, batches⟩
  intro batch member
  obtain ⟨event, shownEvent, isBatch⟩ := List.mem_filterMap.mp member
  obtain ⟨past, rest, split⟩ := List.append_of_mem shownEvent
  have gathered := batches past event rest split
  cases event with
  | began worker handed =>
      cases isBatch
      exact Gathered.not_empty gathered
  | pushed | woke | counted | ended | logged | returned => simp at isBatch

/-- A call panics, items are pushed around the reading of the length, and a stop leaves two items
queued for the next start. -/
theorem batches_exact_restarted :
    ∃ (shown : List (Event Nat)) (last : Drain Nat), PatientRun {} shown last ∧
      handedBatches shown = [[1, 2], [3], [4, 5]] ∧ last.held = [6] ∧ last.queue = [7] ∧
      pushedItems shown = [1, 2, 3, 4, 5, 6, 7] ∧
      (handedBatches shown).flatten ++ last.held ++ last.queue = pushedItems shown ∧
      Always BatchesGathered shown := by
  have run := (PatientRun.rest ({} : Drain Nat)).steps [
    .push 1, .call .start, .control .proceed, .control .proceed, .control .proceed,
    .work 0 .proceed, .push 2, .work 0 .proceed, .push 3, .work 0 .proceed, .work 0 .proceed,
    .work 0 .proceed, .work 0 (.ended true), .work 0 .proceed,
    .work 0 .proceed, .work 0 .proceed, .work 0 .proceed, .work 0 .proceed,
    .call .stop, .control .proceed, .control .proceed, .push 4, .push 5,
    .work 0 (.ended false), .work 0 .proceed, .control .proceed, .control .proceed,
    .call .start, .control .proceed, .control .proceed, .control .proceed,
    .work 1 .proceed, .work 1 .proceed, .work 1 .proceed, .work 1 .proceed, .work 1 .proceed,
    .work 1 (.ended false), .work 1 .proceed, .push 6, .work 1 .proceed, .push 7] (by decide) rfl
  obtain ⟨sequence, -, gathered⟩ := batches_exact run
  exact ⟨_, _, run, rfl, rfl, rfl, rfl, sequence, gathered⟩

end FolderWatch.Drain
