import FolderWatch.Proofs.Drain.Moves
import FolderWatch.Proofs.Trace

/-!
A drain neither loses nor duplicates an item, and it calls its callback once at a time. Both hold
along every run, whatever workers were left alone by stops that gave up and whatever calls panicked.
-/

namespace FolderWatch.Drain

open Trace

variable {α : Type}

@[simp] theorem pushedItems_append (first second : List (Event α)) :
    pushedItems (first ++ second) = pushedItems first ++ pushedItems second :=
  List.filterMap_append

@[simp] theorem handedBatches_append (first second : List (Event α)) :
    handedBatches (first ++ second) = handedBatches first ++ handedBatches second :=
  List.filterMap_append

/-- What the caller does is about no item and no batch. -/
theorem filterMap_of_callers {β : Type} {view : Event α → Option β} {shown : List (Event α)}
    (callers : ∀ event ∈ shown, event.IsCallers)
    (unseen : ∀ event, event.IsCallers → view event = none) : shown.filterMap view = [] :=
  List.filterMap_eq_nil_iff.mpr fun event member => unseen event (callers event member)

theorem pushedItems_of_callers {shown : List (Event α)}
    (callers : ∀ event ∈ shown, event.IsCallers) : pushedItems shown = [] :=
  filterMap_of_callers callers fun event isCallers => by
    cases event <;> simp_all [Event.IsCallers]

theorem handedBatches_of_callers {shown : List (Event α)}
    (callers : ∀ event ∈ shown, event.IsCallers) : handedBatches shown = [] :=
  filterMap_of_callers callers fun event isCallers => by
    cases event <;> simp_all [Event.IsCallers]

theorem perm_flatMap_set {β : Type} {items : List β} {index : Nat} {old : β} (new : β)
    (content : β → List α) (here : items[index]? = some old) :
    (content old ++ (items.set index new).flatMap content).Perm
      (content new ++ items.flatMap content) := by
  induction items generalizing index with
  | nil => simp at here
  | cons item rest ih =>
      cases index with
      | zero =>
          simp only [List.getElem?_cons_zero, Option.some.injEq] at here
          subst item
          simp only [List.set_cons_zero, List.flatMap_cons]
          exact List.perm_append_comm_assoc ..
      | succ index =>
          have tail := (ih (by simpa using here)).append_left (content item)
          simp only [List.set_cons_succ, List.flatMap_cons]
          exact (List.perm_append_comm_assoc ..).trans
            (tail.trans (List.perm_append_comm_assoc ..))

theorem WorkersMove.held {workers next : List (Worker α)} (move : WorkersMove workers next) :
    next.flatMap Worker.held = workers.flatMap Worker.held := by
  cases move with
  | kept => rfl
  | spawned => simp [Worker.held]
  | closed index =>
      induction workers generalizing index with
      | nil => simp
      | cons worker rest ih =>
          cases index with
          | zero => simp [Worker.held]
          | succ index => simp [ih]

theorem WorkerMove.held_queue {drain : Drain α} {index : Nat} {worker : Worker α}
    {phase : WorkerPhase α} {queue : List α} {shown : List (Event α)}
    (move : WorkerMove drain index worker phase queue shown) :
    worker.held ++ drain.queue =
      (handedBatches shown).flatten ++ Worker.held { worker with phase } ++ queue := by
  cases move with
  | wakes phase queued => simp [Worker.held, handedBatches, phase, queued]
  | heeds phase => simp [Worker.held, handedBatches, phase]
  | counts phase => simp [Worker.held, handedBatches, phase]
  | completes phase => simp [Worker.held, handedBatches, phase]
  | takes phase queued => simp [Worker.held, handedBatches, phase, queued]
  | calls phase => simp [Worker.held, handedBatches, phase]
  | returns panicked phase => cases panicked <;> simp [Worker.held, handedBatches, phase]
  | turns phase => cases closed : worker.closed <;> simp [Worker.held, handedBatches, phase]

theorem WorkerMove.pushedItems {drain : Drain α} {index : Nat} {worker : Worker α}
    {phase : WorkerPhase α} {queue : List α} {shown : List (Event α)}
    (move : WorkerMove drain index worker phase queue shown) : pushedItems shown = [] := by
  cases move with
  | returns panicked => cases panicked <;> rfl
  | _ => rfl

theorem Move.items {drain after : Drain α} {shown : List (Event α)}
    (move : Move drain after shown) :
    (drain.held ++ drain.queue ++ pushedItems shown).Perm
      ((handedBatches shown).flatten ++ after.held ++ after.queue) := by
  cases move with
  | pushes item => simp [pushedItems, handedBatches, held]
  | acts queue workers callers =>
      rw [pushedItems_of_callers callers, handedBatches_of_callers callers, queue, held, held,
        workers.held]
      simp
  | @works index worker phase queue _ here move =>
      classical
      -- Counting one item at a time turns both permutations into sums.
      have moved := perm_flatMap_set { worker with phase } Worker.held here
      have passed := move.held_queue
      rw [move.pushedItems, List.append_nil, List.perm_iff_count]
      intro item
      have counted := moved.count_eq item
      have shifted := congrArg (List.count item) passed
      simp only [held, List.count_append] at counted shifted ⊢
      omega

theorem Run.items {stopTimeout : TimeSpan} {last : Drain α} {shown : List (Event α)}
    (run : Run { stopTimeout } shown last) :
    (pushedItems shown).Perm ((handedBatches shown).flatten ++ last.held ++ last.queue) := by
  induction run with
  | rest => exact .refl _
  | step action run taken ih =>
      classical
      have moved := (step_move taken).items
      rw [List.perm_iff_count] at ih moved ⊢
      intro item
      have beforeItem := ih item
      have movedItem := moved item
      simp only [pushedItems_append, handedBatches_append, List.flatten_append,
        List.count_append] at beforeItem movedItem ⊢
      omega

@[simp] theorem callInProgress_append (first second : List (Event α)) :
    callInProgress (first ++ second) = second.foldl callAfter (callInProgress first) :=
  List.foldl_append

theorem foldl_of_callers {σ : Type} {next : σ → Event α → σ} {shown : List (Event α)}
    (callers : ∀ event ∈ shown, event.IsCallers)
    (unseen : ∀ state event, event.IsCallers → next state event = state) (state : σ) :
    shown.foldl next state = state :=
  foldl_ignored fun event member => unseen state event (callers event member)

theorem callAfter_of_callers {shown : List (Event α)}
    (callers : ∀ event ∈ shown, event.IsCallers) (before : Option (Nat × List α)) :
    shown.foldl callAfter before = before :=
  foldl_of_callers callers (fun state event isCallers => by
    cases event <;> simp_all [Event.IsCallers, callAfter]) before

/-- A call goes on until its callback returns, and then nothing new is handed over. -/
theorem call_lasts {drain after : Drain α} {index : Nat} {signal : Signal} {shown : List (Event α)}
    (taken : drain.step (.work index signal) = some (after, shown))
    (before : Option (Nat × List α)) :
    (∃ panicked, signal = .ended panicked ∧ handedBatches shown = []) ∨
      (before ≠ none ∨ handedBatches shown ≠ [] → shown.foldl callAfter before ≠ none) := by
  obtain ⟨worker, -, worked⟩ := stepWorker_of_step taken
  simp only [stepWorker] at worked
  split at worked
  case h_7 panicked _ =>
    cases worked
    exact .inl ⟨panicked, rfl, by cases panicked <;> rfl⟩
  case h_9 => simp at worked
  all_goals
    right
    (repeat' split at worked) <;> cases worked <;> simp [handedBatches, callAfter]

theorem WorkersMove.calling {workers next : List (Worker α)} (move : WorkersMove workers next)
    (index : Nat) (batch : List α) :
    next[index]?.map Worker.phase = some (.calling batch) ↔
      workers[index]?.map Worker.phase = some (.calling batch) := by
  cases move with
  | kept => rfl
  | spawned =>
      rw [getElem?_append_one]
      split
      · rename_i equal
        simp [equal]
      · rfl
  | closed closing =>
      rw [List.getElem?_modify]
      cases workers[index]? with
      | none => simp
      | some worker => by_cases same : closing = index <;> simp [same]

/-- The worker of the call in progress is the one that is calling, with the batch of that call. -/
def CallsFollow (drain : Drain α) (shown : List (Event α)) : Prop :=
  ∀ index batch, drain.workers[index]?.map Worker.phase = some (.calling batch) ↔
    callInProgress shown = some (index, batch)

theorem CallsFollow.idle {drain : Drain α} {shown : List (Event α)}
    (follows : CallsFollow drain shown) (idle : drain.isCalling = false) :
    callInProgress shown = none := by
  rw [Option.eq_none_iff_forall_ne_some]
  rintro ⟨index, batch⟩ current
  have calling := (follows index batch).mpr current
  simp only [Option.map_eq_some_iff] at calling
  obtain ⟨worker, here, phase⟩ := calling
  have silent := List.any_eq_false.mp idle worker (List.mem_of_getElem? here)
  simp [Worker.isCalling, phase] at silent

theorem getElem?_set_phase {workers : List (Worker α)} {index : Nat} {worker next : Worker α}
    (here : workers[index]? = some worker) (other : Nat) :
    (workers.set index next)[other]?.map Worker.phase =
      if other = index then some next.phase else workers[other]?.map Worker.phase := by
  rw [List.getElem?_set]
  by_cases same : index = other
  · subst other
    obtain ⟨below, _⟩ := List.getElem?_eq_some_iff.mp here
    simp [below]
  · simp [same, Ne.symm same]

theorem CallsFollow.move {drain after : Drain α} {shown more : List (Event α)}
    (follows : CallsFollow drain shown) (move : Move drain after more) :
    CallsFollow after (shown ++ more) := by
  cases move with
  | pushes item => simpa [CallsFollow, callAfter] using follows
  | acts queue workers callers =>
      intro index batch
      rw [workers.calling, callInProgress_append, callAfter_of_callers callers]
      exact follows index batch
  | @works index worker phase queue _ here move =>
      have atIndex : drain.workers[index]?.map Worker.phase = some worker.phase := by simp [here]
      intro other batch
      rw [callInProgress_append]
      simp only [getElem?_set_phase here]
      -- A worker that neither begins nor ends a call leaves the call in progress to another one.
      have elsewhere : (∀ items, worker.phase ≠ .calling items) → (∀ items, phase ≠ .calling items) →
          ((if other = index then some phase else drain.workers[other]?.map Worker.phase) =
              some (.calling batch) ↔ callInProgress shown = some (other, batch)) := by
        intro was is
        by_cases same : other = index
        · subst other
          have absent := mt (follows index batch).mpr (by simp [atIndex, was])
          simp [is, absent]
        · simpa [same] using follows other batch
      cases move with
      | wakes was => exact elsewhere (by simp [was]) (by simp)
      | heeds was => exact elsewhere (by simp [was]) (by simp)
      | counts was => exact elsewhere (by simp [was]) (by simp)
      | completes was => exact elsewhere (by simp [was]) (by simp)
      | takes was => exact elsewhere (by simp [was]) (by simp)
      | turns was =>
          exact elsewhere (by simp [was]) (by cases worker.closed <;> simp)
      | calls was idle =>
          have none := follows.idle idle
          by_cases same : other = index
          · subst other
            simp [callAfter, eq_comm]
          · have absent := mt (follows other batch).mp (by simp [none])
            simp [callAfter, same, Ne.symm same, absent]
      | @returns items panicked was =>
          have current := (follows index items).mp (atIndex.trans (congrArg some was))
          have ended : List.foldl callAfter (callInProgress shown)
              (.ended index items panicked ::
                if panicked then [.logged (some index) (callbackPanicked items)] else []) =
              none := by
            cases panicked <;> rfl
          rw [ended]
          by_cases same : other = index
          · simp [same]
          · have absent := mt (follows other batch).mp (by simp [current, Ne.symm same])
            simp [same, absent]

theorem Run.calls {stopTimeout : TimeSpan} {last : Drain α} {shown : List (Event α)}
    (run : Run { stopTimeout } shown last) : CallsFollow last shown := by
  induction run with
  | rest => simp [CallsFollow, callInProgress]
  | step action run taken ih => exact ih.move (step_move taken)

def InTurn (past : List (Event α)) : Event α → Prop
  | .began .. => callInProgress past = none
  | .ended worker batch _ => callInProgress past = some (worker, batch)
  | _ => True

theorem CallsFollow.inTurn {drain after : Drain α} {shown more : List (Event α)}
    (follows : CallsFollow drain shown) (move : Move drain after more) :
    Always (fun past => InTurn (shown ++ past)) more := by
  cases move with
  | pushes item => exact always_singleton.mpr trivial
  | acts queue workers callers =>
      refine .of_forall fun past event member => ?_
      have isCallers := callers event member
      cases event <;> simp_all [Event.IsCallers, InTurn]
  | @works index worker phase queue _ here move =>
      cases move with
      | wakes | counts => exact always_singleton.mpr trivial
      | heeds | completes | takes | turns => exact .nil _
      | calls was idle =>
          exact always_singleton.mpr (by simpa [InTurn] using follows.idle idle)
      | @returns items panicked was =>
          have current := (follows index items).mp (by simp [here, was])
          refine .cons (by simpa [InTurn] using current) (.of_forall fun past event member => ?_)
          cases panicked <;> simp_all [InTurn]

theorem Run.inTurn {stopTimeout : TimeSpan} {last : Drain α} {shown : List (Event α)}
    (run : Run { stopTimeout } shown last) : Always InTurn shown := by
  induction run with
  | rest => exact .nil _
  | step action run taken ih => exact ih.append (run.calls.inTurn (step_move taken))

/-- Every item pushed was handed over in one call, is held by one worker, or is still queued, and no
two calls are ever in progress. -/
theorem items_conserved {stopTimeout : TimeSpan} {last : Drain α} {shown : List (Event α)}
    (run : Run { stopTimeout } shown last) :
    (pushedItems shown).Perm ((handedBatches shown).flatten ++ last.held ++ last.queue) ∧
      (pushedItems shown).length =
        (handedBatches shown).flatten.length + last.held.length + last.pending ∧
      Always InTurn shown ∧
      ∀ (first second : Nat) (batch other : List α),
        last.workers[first]?.map Worker.phase = some (.calling batch) →
          last.workers[second]?.map Worker.phase = some (.calling other) → first = second := by
  have items := run.items
  refine ⟨items, ?_, run.inTurn, ?_⟩
  · have counted := items.length_eq
    simpa only [List.length_append, pending] using counted
  · intro first second batch other firstCalls secondCalls
    have firstCurrent := (run.calls first batch).mp firstCalls
    have secondCurrent := (run.calls second other).mp secondCalls
    have same := firstCurrent.symm.trans secondCurrent
    simp only [Option.some.injEq, Prod.mk.injEq] at same
    exact same.1

/-- A worker is left alone in its call, which then panics, while its successor holds a batch. -/
theorem items_conserved_left_alone :
    ∃ (shown : List (Event Nat)) (last : Drain Nat), Run {} shown last ∧
      handedBatches shown = [[1]] ∧ last.held = [2] ∧ last.queue = [3] ∧
      (pushedItems shown).Perm ((handedBatches shown).flatten ++ last.held ++ last.queue) := by
  have run := (Run.rest ({} : Drain Nat)).steps [
    .push 1, .call .start, .control .proceed, .control .proceed, .control .proceed,
    .work 0 .proceed, .work 0 .proceed, .push 2, .work 0 .proceed, .work 0 .proceed,
    .call .stop, .control .proceed, .control .proceed, .control .leave, .control .proceed,
    .call .start, .control .proceed, .control .proceed, .control .proceed,
    .work 1 .proceed, .work 1 .proceed, .push 3, .work 1 .proceed, .work 0 (.ended true)] rfl
  exact ⟨_, _, run, rfl, rfl, rfl, (items_conserved run).1⟩

end FolderWatch.Drain
