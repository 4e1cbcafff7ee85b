import FolderWatch.Proofs.Drain.Order

/-!
What a worker still takes once it is to stop. Wherever its loop is when the stop comes, it takes the
rest of one batch at most and leaves after its call. A stop that waited for its worker leaves only
those workers behind that earlier stops gave up on.
-/

namespace FolderWatch.Drain

open Trace

variable {α : Type} {drain next last : Drain α} {shown more : List (Event α)}
variable {action : Action α} {actions : List (Action α)} {index : Nat} {phase : WorkerPhase α}

/-- What a step takes out of the queue, each item with the worker that took it. -/
def removal (drain : Drain α) (action : Action α) (next : Drain α) : List (Nat × α) :=
  match action with
  | .work index _ =>
      (drain.queue.take (drain.queue.length - next.queue.length)).map fun item => (index, item)
  | .push _ | .call _ | .control _ => []

def removals (drain : Drain α) : List (Action α) → List (Nat × α)
  | [] => []
  | action :: rest =>
      match drain.step action with
      | none => []
      | some (next, _) => drain.removal action next ++ next.removals rest

/-- What one worker takes out of the queue. -/
def removed (index : Nat) (removals : List (Nat × α)) : List α :=
  (removals.filter (·.1 = index)).map Prod.snd

/-- The worker that a stop gives up waiting for. -/
def leftBehind (drain : Drain α) (action : Action α) : List Nat :=
  match action, drain.control with
  | .control .leave, .joining index => [index]
  | _, _ => []

def givenUp (drain : Drain α) : List (Action α) → List Nat
  | [] => []
  | action :: rest =>
      match drain.step action with
      | none => []
      | some (next, _) => drain.leftBehind action ++ next.givenUp rest

/-- Its last call has begun, for a worker that is to stop. -/
def WorkerPhase.IsSpent : WorkerPhase α → Prop
  | .calling _ | .returned | .exited => True
  | .waiting | .woken _ | .taking .. | .holding _ => False

/-- The worker is to stop, and its loop has come this far. -/
def Closing (index : Nat) (phase : WorkerPhase α) (drain : Drain α) : Prop :=
  drain.workers[index]? = some ⟨true, phase⟩

/-- All that a worker holds and takes is of one batch, which it still has in hand or which it has
handed over, and then its last call has begun. -/
inductive LastBatch (index : Nat) (drain last : Drain α) (taken : List α)
    (shown : List (Event α)) : Prop
  | inHand (unhanded : handedBy index shown = [])
      (held : last.heldBy index = drain.heldBy index ++ taken)
  | handed {phase : WorkerPhase α} (once : handedBy index shown = [drain.heldBy index ++ taken])
      (left : Closing index phase last) (spent : phase.IsSpent)

theorem removals_cons {rest : List (Action α)} (stepped : drain.step action = some (next, shown)) :
    drain.removals (action :: rest) = drain.removal action next ++ next.removals rest := by
  simp [removals, stepped]

@[simp] theorem removed_append (index : Nat) (first second : List (Nat × α)) :
    removed index (first ++ second) = removed index first ++ removed index second := by
  simp [removed]

/-- A step that no worker takes. -/
structure Aside (drain next : Drain α) (shown : List (Event α)) : Prop where
  queue : next.queue = drain.queue ++ pushedItems shown
  workers : WorkersMove drain.workers next.workers
  unhanded : ∀ index, handedBy index shown = []
  uncounted : ∀ index queued, .counted index queued ∉ shown

inductive Turn (drain : Drain α) (action : Action α) (next : Drain α) (shown : List (Event α)) :
    Prop
  | aside (aside : Aside drain next shown) (untouched : drain.removal action next = [])
  | works {index : Nat} {worker : Worker α} {phase : WorkerPhase α} {queue drawn : List α}
      (here : drain.workers[index]? = some worker)
      (move : WorkerMove drain index worker phase queue shown)
      (after : next = { drain with
        queue, workers := drain.workers.set index { worker with phase } })
      (queued : drain.queue = drawn ++ queue)
      (passed : worker.held ++ drawn =
        (handedBatches shown).flatten ++ Worker.held { worker with phase })
      (took : drain.removal action next = drawn.map fun item => (index, item))

theorem Aside.of_callers (queue : next.queue = drain.queue)
    (workers : WorkersMove drain.workers next.workers)
    (callers : ∀ event ∈ shown, event.IsCallers) : Aside drain next shown where
  queue := by rw [queue, pushedItems_of_callers callers, List.append_nil]
  workers := workers
  unhanded := handedBy_of_callers callers
  uncounted := fun _ _ member => callers _ member

theorem step_turn (stepped : drain.step action = some (next, shown)) :
    Turn drain action next shown := by
  cases action with
  | push item =>
      cases stepped
      exact .aside ⟨rfl, .kept, fun _ => rfl, by simp⟩ rfl
  | call operation =>
      obtain ⟨queue, workers, callers⟩ := begin_workers (begin_of_step stepped).2
      exact .aside (.of_callers queue (workers ▸ .kept) callers) rfl
  | control signal =>
      obtain ⟨queue, workers, callers⟩ := stepControl_workers stepped
      exact .aside (.of_callers queue workers callers) rfl
  | work index signal =>
      obtain ⟨worker, phase, queue, here, move, rfl⟩ := work_move stepped
      obtain ⟨drawn, queued, passed⟩ := move.draws
      refine .works here move rfl queued passed ?_
      simp [removal, queued]

/-! ### The last batch -/

theorem WorkersMove.keeps {workers after : List (Worker α)} {worker : Worker α}
    (move : WorkersMove workers after) (here : workers[index]? = some worker) :
    ∃ closed, after[index]? = some { worker with closed } ∧ (worker.closed = true → closed = true) := by
  cases move with
  | kept => exact ⟨worker.closed, here, id⟩
  | spawned =>
      obtain ⟨below, -⟩ := List.getElem?_eq_some_iff.mp here
      exact ⟨worker.closed, by rw [List.getElem?_append_left below, here], id⟩
  | closed leaver =>
      rw [List.getElem?_modify, here]
      by_cases same : leaver = index
      · exact ⟨true, by simp [same], fun _ => rfl⟩
      · exact ⟨worker.closed, by simp [same], id⟩

theorem removed_tagged (index other : Nat) (items : List α) :
    removed index (items.map fun item => (other, item)) = if index = other then items else [] :=
  filter_tagged other index items

/-- One worker in a step: it is left where it is, or the step is one of its loop. -/
inductive Share (index : Nat) (worker : Worker α) (drain : Drain α) (action : Action α)
    (next : Drain α) (shown : List (Event α)) : Prop
  | others {closed : Bool} (kept : next.workers[index]? = some { worker with closed })
      (still : worker.closed = true → closed = true) (unhanded : handedBy index shown = [])
      (untaken : removed index (drain.removal action next) = [])
  | own {phase : WorkerPhase α} {queue : List α}
      (move : WorkerMove drain index worker phase queue shown)
      (there : next.workers[index]? = some { worker with phase })
      (passed : worker.held ++ removed index (drain.removal action next) =
        (handedBy index shown).flatten ++ Worker.held { worker with phase })

theorem share {worker : Worker α} (here : drain.workers[index]? = some worker)
    (stepped : drain.step action = some (next, shown)) :
    Share index worker drain action next shown := by
  cases step_turn stepped with
  | aside aside untouched =>
      obtain ⟨closed, kept, still⟩ := aside.workers.keeps here
      exact .others kept still (aside.unhanded index) (by simp [untouched, removed])
  | @works mover moving phase queue drawn found move after queued passed took =>
      obtain ⟨below, -⟩ := List.getElem?_eq_some_iff.mp found
      subst next
      by_cases same : index = mover
      · subst mover
        cases here.symm.trans found
        refine .own move (by simp [below]) ?_
        rw [took, removed_tagged, if_pos rfl, passed, move.handedBy_eq, if_pos rfl]
      · refine .others ((List.getElem?_set_ne (Ne.symm same)).trans here) id ?_ ?_
        · rw [move.handedBy_eq, if_neg same]
        · simp [took, removed_tagged, same]

theorem Closing.heldBy (closing : Closing index phase drain) :
    drain.heldBy index = Worker.held ⟨true, phase⟩ :=
  heldBy_of_here closing

theorem WorkerPhase.IsSpent.held (spent : phase.IsSpent) (closed : Bool) :
    Worker.held ⟨closed, phase⟩ = [] := by
  cases phase <;> first | rfl | exact spent.elim

theorem WorkerMove.spent {after : WorkerPhase α} {queue : List α}
    (move : WorkerMove drain index ⟨true, phase⟩ after queue shown) (spent : phase.IsSpent) :
    after.IsSpent ∧ handedBy index shown = [] := by
  cases move with
  | wakes was | heeds was | counts was | completes was | takes was | calls was =>
      cases was
      exact spent.elim
  | returns panicked => exact ⟨trivial, by cases panicked <;> rfl⟩
  | turns => exact ⟨trivial, rfl⟩

/-- From its last call on a worker takes nothing. -/
theorem Closing.spent (closing : Closing index phase drain) (spent : phase.IsSpent)
    (taken : drain.steps actions = some (last, shown)) :
    removed index (drain.removals actions) = [] ∧ handedBy index shown = [] ∧
      ∃ later, Closing index later last ∧ later.IsSpent ∧ (phase = .exited → later = .exited) := by
  induction actions generalizing drain phase shown with
  | nil =>
      cases taken
      exact ⟨rfl, rfl, phase, closing, spent, id⟩
  | cons action rest ih =>
      obtain ⟨next, first, more, stepped, goes, rfl⟩ := steps_cons taken
      rw [removals_cons stepped, removed_append, handedBy_append, List.append_eq_nil_iff,
        List.append_eq_nil_iff]
      cases share closing stepped with
      | others kept still unhanded untaken =>
          cases still rfl
          obtain ⟨untakenLater, unhandedLater, left⟩ := ih kept spent goes
          exact ⟨⟨untaken, untakenLater⟩, ⟨unhanded, unhandedLater⟩, left⟩
      | own move further passed =>
          obtain ⟨spentAfter, unhanded⟩ := move.spent spent
          obtain ⟨untakenLater, unhandedLater, later, left, spentLater, -⟩ := ih further spentAfter goes
          rw [spent.held, unhanded, spentAfter.held] at passed
          exact ⟨⟨passed, untakenLater⟩, ⟨unhanded, unhandedLater⟩, later, left, spentLater,
            fun gone => absurd gone move.not_exited⟩

theorem WorkerMove.hands_or {worker : Worker α} {after : WorkerPhase α} {queue : List α}
    (move : WorkerMove drain index worker after queue shown) :
    (∃ batch, worker.phase = .holding batch ∧ after = .calling batch ∧
      handedBy index shown = [batch]) ∨ handedBy index shown = [] := by
  cases move with
  | calls was => exact .inl ⟨_, was, rfl, by simp [handedBy]⟩
  | returns panicked => exact .inr (by cases panicked <;> rfl)
  | _ => exact .inr rfl

/-- A worker that is to stop has one batch at most left to hand over. -/
theorem Closing.lastBatch (closing : Closing index phase drain)
    (taken : drain.steps actions = some (last, shown)) :
    LastBatch index drain last (removed index (drain.removals actions)) shown := by
  -- By induction on the actions from the front: what the worker holds grows until it is handed over, and
  -- from then on it is spent.
  induction actions generalizing drain phase shown with
  | nil =>
      cases taken
      exact .inHand rfl (by simp [removals, removed])
  | cons action rest ih =>
      obtain ⟨next, first, more, stepped, goes, rfl⟩ := steps_cons taken
      rw [removals_cons stepped, removed_append]
      cases share closing stepped with
      | others kept still unhanded untaken =>
          cases still rfl
          have same : next.heldBy index = drain.heldBy index :=
            (heldBy_of_here kept).trans closing.heldBy.symm
          rw [untaken, List.nil_append]
          cases ih kept goes with
          | inHand unhandedLater held =>
              refine .inHand (by simp [unhanded, unhandedLater]) ?_
              rw [held, same]
          | handed once left spent =>
              refine .handed ?_ left spent
              rw [handedBy_append, unhanded, once, same, List.nil_append]
      | own move further passed =>
          rcases move.hands_or with ⟨batch, rfl, rfl, handedNow⟩ | unhanded
          · obtain ⟨untaken, unhanded, later, left, spent, -⟩ := Closing.spent further trivial goes
            rw [handedNow] at passed
            refine .handed ?_ left spent
            rw [handedBy_append, handedNow, unhanded, untaken, List.append_nil, List.append_nil,
              closing.heldBy, passed]
            simp [Worker.held]
          · rw [unhanded, List.flatten_nil, List.nil_append, ← heldBy_of_here further,
              ← closing.heldBy] at passed
            cases ih further goes with
            | inHand unhandedLater held =>
                refine .inHand (by simp [unhanded, unhandedLater]) ?_
                rw [held, ← passed, List.append_assoc]
            | handed once left spent =>
                refine .handed ?_ left spent
                rw [handedBy_append, unhanded, once, ← passed, List.append_assoc, List.nil_append]

theorem GoesOn.collects {closed : Bool} (goesOn : GoesOn index ⟨closed, phase⟩ drain last more)
    (awake : phase ≠ .waiting) (unspent : ¬phase.IsSpent) :
    ∃ batch final shown, GoesOn index ⟨closed, .holding batch⟩ drain final shown := by
  cases phase with
  | waiting => exact absurd rfl awake
  | woken first =>
      obtain ⟨final, rest, collected⟩ := (goesOn.move (.counts rfl)).gathers
      exact ⟨_, final, _, collected⟩
  | taking batch left =>
      obtain ⟨final, rest, collected⟩ := goesOn.gathers
      exact ⟨_, final, _, collected⟩
  | holding batch => exact ⟨batch, last, more, goesOn⟩
  | calling | returned | exited => exact absurd trivial unspent

theorem GoesOn.leaves (goesOn : GoesOn index ⟨true, phase⟩ drain last more) (spent : phase.IsSpent) :
    ∃ final shown, GoesOn index ⟨true, .exited⟩ drain final shown := by
  cases phase with
  | calling batch => exact ⟨_, _, (goesOn.move (.returns false rfl)).move (.turns rfl)⟩
  | returned => exact ⟨_, _, goesOn.move (.turns rfl)⟩
  | exited => exact ⟨_, _, goesOn⟩
  | waiting | woken | taking | holding => exact spent.elim

/-- Once the call in progress has ended, a worker that is to stop can see its batch through and leave. -/
theorem Run.exists_left {stopTimeout : TimeSpan} (run : Run { stopTimeout } shown drain)
    (closing : Closing index phase drain) :
    ∃ final more, Run drain more final ∧ pushedItems more = [] ∧ Closing index .exited final := by
  by_cases spent : phase.IsSpent
  · obtain ⟨final, more, left⟩ := (GoesOn.rest closing).leaves spent
    exact ⟨final, more, left.run, left.unpushed, left.here⟩
  by_cases waiting : phase = .waiting
  · subst waiting
    have left := (GoesOn.rest closing).move (.heeds rfl rfl)
    exact ⟨_, _, left.run, left.unpushed, left.here⟩
  · obtain ⟨idle, ending, ends, unpushed, free, kept, -⟩ := run.exists_idle
    have silent : Worker.isCalling ⟨true, phase⟩ = false := by
      cases phase <;> first | rfl | exact absurd trivial spent
    obtain ⟨batch, middle, more, collected⟩ :=
      (GoesOn.rest (kept index _ closing silent)).collects waiting spent
    have begun := collected.move (.calls rfl (collected.idle free rfl))
    obtain ⟨final, last, left⟩ := begun.leaves trivial
    exact ⟨final, _, ends.trans left.run, by simp [unpushed, left.unpushed], left.here⟩

/-! ### What stops leave behind -/

/-- The queue is filled at its end and emptied from its front. -/
theorem steps_queue (taken : drain.steps actions = some (last, shown)) :
    drain.queue ++ pushedItems shown = (drain.removals actions).map Prod.snd ++ last.queue := by
  induction actions generalizing drain shown with
  | nil =>
      cases taken
      simp [removals, pushedItems]
  | cons action rest ih =>
      obtain ⟨next, first, more, stepped, goes, rfl⟩ := steps_cons taken
      rw [removals_cons stepped, List.map_append, List.append_assoc, ← ih goes, pushedItems_append]
      cases step_turn stepped with
      | aside aside untouched =>
          rw [untouched, aside.queue]
          simp
      | works here move after queued passed took =>
          rw [took, after, queued, move.pushedItems]
          simp [Function.comp_def]

/-- Every worker that the next stop will not stop is to stop already, and it has left or a stop gave
up on it. -/
structure Attended (left : List Nat) (drain : Drain α) : Prop where
  others : ∀ index worker, drain.workers[index]? = some worker →
    drain.control.charge drain.slot ≠ some index →
    worker.closed = true ∧ (worker.phase = .exited ∨ index ∈ left)
  joining : ∀ index worker, drain.control = .joining index → drain.workers[index]? = some worker →
    worker.closed = true

variable {left : List Nat}

theorem Attended.mono (attended : Attended left drain) (further : List Nat) :
    Attended (left ++ further) drain := by
  refine ⟨?_, attended.joining⟩
  intro index worker here different
  obtain ⟨closed, gone | member⟩ := attended.others index worker here different
  · exact ⟨closed, .inl gone⟩
  · exact ⟨closed, .inr (List.mem_append_left _ member)⟩

theorem Attended.callerMove (attended : Attended left drain) (coherent : Coherent drain)
    (move : CallerMove drain action next shown) :
    Attended (left ++ drain.leftBehind action) next := by
  have reassigned := move.reassigned coherent
  constructor
  · intro index worker here different
    obtain ⟨before, uncharged | ⟨joining, waited⟩⟩ := reassigned.uncharged here different
    · exact (attended.mono _).others index worker before uncharged
    · refine ⟨attended.joining index worker joining before, ?_⟩
      rcases waited with rfl | gone
      · exact .inr (by simp [leftBehind, joining])
      · exact .inl gone
  · intro index worker joining here
    cases reassigned with
    | kept _ _ _ joins | parted _ _ joins => exact absurd joining (joins index)
    | hired _ _ control => simp [control] at joining
    | dismissed _ workers control =>
        cases control.symm.trans joining
        exact closed_of_modify (workers ▸ here)

theorem Attended.step (attended : Attended left drain) (coherent : Coherent drain)
    (stepped : drain.step action = some (next, shown)) :
    Attended (left ++ drain.leftBehind action) next := by
  cases action with
  | push item =>
      cases stepped
      have further := attended.mono (drain.leftBehind (.push item))
      exact ⟨further.others, further.joining⟩
  | call operation => exact attended.callerMove coherent (call_move stepped)
  | control signal => exact attended.callerMove coherent (control_move stepped)
  | work moving signal =>
      obtain ⟨worker, phase, queue, found, move, rfl⟩ := work_move stepped
      constructor
      · intro index other here different
        rcases getElem?_set_cases here with ⟨rfl, rfl⟩ | ⟨-, before⟩
        · obtain ⟨closed, gone | member⟩ := attended.others moving worker found different
          · exact absurd gone move.not_exited
          · exact ⟨closed, .inr (List.mem_append_left _ member)⟩
        · exact (attended.mono _).others index other before different
      · intro index other joining here
        rcases getElem?_set_cases here with ⟨rfl, rfl⟩ | ⟨-, before⟩
        · exact attended.joining moving worker joining found
        · exact attended.joining index other joining before

theorem Attended.steps (attended : Attended left drain) (coherent : Coherent drain)
    (taken : drain.steps actions = some (last, shown)) :
    Attended (left ++ drain.givenUp actions) last := by
  induction actions generalizing drain left shown with
  | nil =>
      cases taken
      exact attended.mono _
  | cons action rest ih =>
      obtain ⟨next, first, more, stepped, goes, rfl⟩ := steps_cons taken
      have further := ih (attended.step coherent stepped) (coherent.step stepped) goes
      simpa [givenUp, stepped] using further

/-- A stop has parted from its worker, and no start has come since. -/
def Resting (drain : Drain α) : Prop :=
  drain.control = .parted ∨ drain.control = .free ∧ drain.isRunning = false

theorem Resting.charge (resting : Resting drain) (coherent : Coherent drain) :
    drain.control.charge drain.slot = none := by
  have agrees := coherent.agrees
  rcases resting with parted | ⟨free, stopped⟩
  · simp only [parted, Control.Agrees] at agrees
    simpa [parted, Control.charge] using agrees.2
  · simp only [free, Control.Agrees, stopped] at agrees
    simpa [free, Control.charge] using agrees.symm

theorem Resting.leftBehind (resting : Resting drain) (action : Action α) :
    drain.leftBehind action = [] := by
  rcases resting with parted | ⟨free, -⟩
  · cases action <;> simp [FolderWatch.Drain.leftBehind, parted]
  · cases action <;> simp [FolderWatch.Drain.leftBehind, free]

theorem Resting.callerMove (resting : Resting drain) (coherent : Coherent drain)
    (unstarted : action ≠ .call .start) (move : CallerMove drain action next shown) :
    Resting next := by
  cases move with
  | refused => exact resting
  | startCalled => exact absurd rfl unstarted
  | stopCalled free runs =>
      rcases resting with parted | ⟨-, stopped⟩
      · simp [free] at parted
      · rcases runs with can | running
        · have running := (Lifecycle.can_stop_iff coherent.machine).mp can
          exact absurd (running.symm.trans stopped) (by simp)
        · simp [running] at stopped
  | stopRefused control stuck => simp [coherent.stop_moves control] at stuck
  | stopped control moved =>
      cases (coherent.stop_moves control).symm.trans moved
      exact .inr ⟨rfl, rfl⟩
  | spawned control | startRefused control | startMoved control | started control
  | slotEmpty control | slotTaken control | closed control | joined control | gaveUp control =>
      simp [Resting, control] at resting

theorem Resting.step (resting : Resting drain) (coherent : Coherent drain)
    (unstarted : action ≠ .call .start) (stepped : drain.step action = some (next, shown)) :
    Resting next := by
  cases action with
  | push item =>
      cases stepped
      exact resting
  | call operation => exact resting.callerMove coherent unstarted (call_move stepped)
  | control signal => exact resting.callerMove coherent unstarted (control_move stepped)
  | work index signal =>
      obtain ⟨worker, phase, queue, -, -, rfl⟩ := work_move stepped
      exact resting

/-- Until the next start only workers that stops gave up on take items. -/
theorem Resting.removals (resting : Resting drain) (coherent : Coherent drain)
    (attended : Attended left drain) (unstarted : .call .start ∉ actions)
    (taken : drain.steps actions = some (last, shown)) :
    ∀ removal ∈ drain.removals actions, removal.1 ∈ left := by
  induction actions generalizing drain shown with
  | nil => simp [FolderWatch.Drain.removals]
  | cons action rest ih =>
      obtain ⟨next, first, more, stepped, goes, rfl⟩ := steps_cons taken
      simp only [List.mem_cons, not_or] at unstarted
      have attendedNext := attended.step coherent stepped
      rw [resting.leftBehind, List.append_nil] at attendedNext
      have later := ih (resting.step coherent (Ne.symm unstarted.1) stepped) (coherent.step stepped)
        attendedNext unstarted.2 goes
      rw [removals_cons stepped]
      intro removal member
      rcases List.mem_append.mp member with now | more
      · cases step_turn stepped with
        | aside aside untouched => simp [untouched] at now
        | @works index worker phase queue drawn here move after queued passed took =>
            rw [took] at now
            obtain ⟨item, -, rfl⟩ := List.mem_map.mp now
            have idle : drain.control.charge drain.slot ≠ some index := by
              simp [resting.charge coherent]
            obtain ⟨-, gone | member⟩ := attended.others index worker here idle
            · exact absurd gone move.not_exited
            · exact member
      · exact later removal more

/-- How many items a worker takes at most before it next reads how many are queued. -/
def WorkerPhase.room : WorkerPhase α → Nat
  | .taking _ left => left
  | .waiting | .woken _ | .holding _ | .calling _ | .returned | .exited => 0

/-- A step that neither wakes the worker nor reads the length takes no more than there is room for. -/
theorem WorkerMove.room_le {worker : Worker α} {after : WorkerPhase α} {queue drawn : List α}
    (move : WorkerMove drain index worker after queue shown)
    (passed : worker.held ++ drawn =
      (handedBy index shown).flatten ++ Worker.held { worker with phase := after })
    (unwoken : ∀ first, after ≠ .woken first) (uncounted : ∀ queued, .counted index queued ∉ shown) :
    (∀ first, worker.phase ≠ .woken first) ∧ drawn.length + after.room ≤ worker.phase.room := by
  have lengths := congrArg List.length passed
  cases move with
  | wakes => exact absurd rfl (unwoken _)
  | counts => exact absurd List.mem_cons_self (uncounted _)
  | heeds was | completes was | calls was =>
      simp_all [Worker.held, handedBy, WorkerPhase.room]
  | takes was =>
      simp_all [Worker.held, handedBy, WorkerPhase.room]
      omega
  | returns panicked was =>
      cases panicked <;> simp_all [Worker.held, handedBy, WorkerPhase.room]
  | turns was =>
      cases closed : worker.closed <;> simp_all [Worker.held, handedBy, WorkerPhase.room]

theorem removed_le_room {worker : Worker α} (here : drain.workers[index]? = some worker)
    (taken : drain.steps actions = some (last, shown))
    (uncounted : ∀ queued, .counted index queued ∉ shown)
    (gone : last.workers[index]?.map Worker.phase = some .exited) :
    (∀ first, worker.phase ≠ .woken first) ∧
      (removed index (drain.removals actions)).length ≤ worker.phase.room := by
  -- A woken worker would have to read the length before it can leave, which is why none is in the way.
  induction actions generalizing drain worker shown with
  | nil =>
      cases taken
      have exited : worker.phase = .exited := by simpa [here] using gone
      simp [exited, removals, removed]
  | cons action rest ih =>
      obtain ⟨next, first, more, stepped, goes, rfl⟩ := steps_cons taken
      simp only [List.mem_append, not_or] at uncounted
      have further (worker : Worker α) (there : next.workers[index]? = some worker) :=
        ih there goes fun queued => (uncounted queued).2
      rw [removals_cons stepped, removed_append, List.length_append]
      cases share here stepped with
      | others kept still unhanded untaken =>
          rw [untaken]
          simpa using further _ kept
      | own move there passed =>
          obtain ⟨unwoken, least⟩ := further _ there
          obtain ⟨awake, room⟩ := move.room_le passed unwoken fun queued => (uncounted queued).1
          refine ⟨awake, Nat.le_trans ?_ room⟩
          exact Nat.add_le_add_left least _

theorem counted_taking {signal : Signal} {queued : List α}
    (counted : drain.step (.work index signal) = some (next, [.counted index queued])) :
    next.queue = queued ∧
      ∃ closed first, next.workers[index]? = some ⟨closed, .taking [first] queued.length⟩ := by
  obtain ⟨worker, phase, queue, here, move, rfl⟩ := work_move counted
  obtain ⟨below, -⟩ := List.getElem?_eq_some_iff.mp here
  generalize list : [Event.counted index queued] = shown at move
  cases move with
  | counts =>
      cases list
      exact ⟨rfl, worker.closed, _, List.getElem?_set_self below⟩
  | returns panicked => cases panicked <;> cases list
  | wakes | heeds | completes | takes | calls | turns => cases list

/-- If no other worker takes any, the items pushed after a worker last read the length stay queued. -/
theorem pushed_since_counted {signal : Signal} {queued : List α}
    (counted : drain.step (.work index signal) = some (next, [.counted index queued]))
    (taken : next.steps actions = some (last, shown))
    (uncounted : ∀ later, .counted index later ∉ shown)
    (gone : last.workers[index]?.map Worker.phase = some .exited)
    (alone : ∀ removal ∈ next.removals actions, removal.1 = index) :
    ∃ rest, rest <:+ queued ∧ last.queue = rest ++ pushedItems shown := by
  obtain ⟨rfl, closed, first, here⟩ := counted_taking counted
  have room := (removed_le_room here taken uncounted gone).2
  have all : removed index (next.removals actions) = (next.removals actions).map Prod.snd := by
    rw [removed, List.filter_eq_self.mpr]
    simpa using alone
  have account := steps_queue taken
  rw [← all] at account
  refine ⟨next.queue.drop (removed index (next.removals actions)).length, List.drop_suffix _ _, ?_⟩
  rw [← List.drop_append_of_le_length room, account, List.drop_left]

/-- What is left of a worker that is to stop: one batch at most, and then it leaves for good. -/
structure Retires (index : Nat) (phase : WorkerPhase α) (drain : Drain α) : Prop where
  lastBatch : ∀ {actions : List (Action α)} {last : Drain α} {shown : List (Event α)},
    drain.steps actions = some (last, shown) →
      LastBatch index drain last (removed index (drain.removals actions)) shown
  gone : ∀ {actions : List (Action α)} {last : Drain α} {shown : List (Event α)},
    drain.steps actions = some (last, shown) → phase = .exited →
      removed index (drain.removals actions) = [] ∧ Closing index .exited last
  leaves : ∃ last shown, Run drain shown last ∧ pushedItems shown = [] ∧ Closing index .exited last

theorem Run.retires {stopTimeout : TimeSpan} (run : Run { stopTimeout } shown drain)
    (closing : Closing index phase drain) : Retires index phase drain where
  lastBatch := closing.lastBatch
  gone := by
    rintro actions last more taken rfl
    obtain ⟨untaken, -, later, left, -, exited⟩ := closing.spent trivial taken
    exact ⟨untaken, exited rfl ▸ left⟩
  leaves := run.exists_left closing

/-- What becomes of the queue until the next start, once a stop has waited for worker `index`: it is
filled at its end, and only workers that stops gave up on earlier still take from its front. -/
structure LeftTo (left : List Nat) (index : Nat) (drain : Drain α) : Prop where
  closed : ∀ (other : Nat) (worker : Worker α), drain.workers[other]? = some worker →
    worker.closed = true
  takers : ∀ {actions : List (Action α)} {last : Drain α} {shown : List (Event α)},
    .call .start ∉ actions → drain.steps actions = some (last, shown) →
      ∀ removal ∈ drain.removals actions, removal.1 ∈ left ∧ removal.1 ≠ index
  queue : ∀ {actions : List (Action α)} {last : Drain α} {shown : List (Event α)},
    drain.steps actions = some (last, shown) →
      drain.queue ++ pushedItems shown = (drain.removals actions).map Prod.snd ++ last.queue
  undisturbed : ∀ {actions : List (Action α)} {last : Drain α} {shown : List (Event α)},
    .call .start ∉ actions → drain.steps actions = some (last, shown) →
      (∀ other ∈ left, Closing other .exited drain) → last.queue = drain.queue ++ pushedItems shown

theorem Closing.not_taker (closing : Closing index .exited drain)
    (taken : drain.steps actions = some (last, shown)) :
    ∀ removal ∈ drain.removals actions, removal.1 ≠ index := by
  rintro ⟨other, item⟩ member rfl
  have untaken := (closing.spent trivial taken).1
  have taken : item ∈ removed other (drain.removals actions) := by
    simpa [removed] using member
  simp [untaken] at taken

theorem Resting.leftTo (resting : Resting drain) (coherent : Coherent drain)
    (attended : Attended left drain) (gone : Closing index .exited drain) :
    LeftTo left index drain where
  closed := by
    intro other worker here
    exact (attended.others other worker here (by simp [resting.charge coherent])).1
  takers := by
    intro actions last shown unstarted taken removal member
    exact ⟨resting.removals coherent attended unstarted taken removal member,
      gone.not_taker taken removal member⟩
  queue := steps_queue
  undisturbed := by
    intro actions last shown unstarted taken allGone
    have none : drain.removals actions = [] := by
      rw [List.eq_nil_iff_forall_not_mem]
      intro removal member
      have known := resting.removals coherent attended unstarted taken removal member
      exact (allGone removal.1 known).not_taker taken removal member rfl
    simpa [none] using (steps_queue taken).symm

theorem Attended.leftTo {joined : Drain α} (attended : Attended left drain)
    (coherent : Coherent drain) (control : drain.control = .joining index)
    (stepped : drain.step (.control .proceed) = some (joined, shown)) :
    LeftTo left index joined := by
  have further := attended.step coherent stepped
  have waited : drain.leftBehind (.control .proceed) = [] := rfl
  rw [waited, List.append_nil] at further
  have coherentNext := coherent.step stepped
  cases control_move stepped with
  | @joined other worker joins here gone =>
      cases control.symm.trans joins
      obtain ⟨closed, phase⟩ := worker
      cases attended.joining index _ control here
      cases gone
      exact Resting.leftTo (.inl rfl) coherentNext further here
  | spawned other | startRefused other | startMoved other | started other | slotEmpty other
  | slotTaken other | closed other | stopRefused other | stopped other =>
      simp [control] at other

/-- A worker that is to stop takes the rest of one batch at most, wherever its loop is and whoever
shares the queue with it, and leaves. After a stop that waited for its worker only workers that
earlier stops gave up on take from the queue until the next start. If none of them does, the items
pushed after the worker last read the length are still queued. -/
theorem stopping_takes_one_batch {stopTimeout : TimeSpan} {past : List (Action α)}
    {reached : Drain α} (run : ({ stopTimeout } : Drain α).steps past = some (reached, shown)) :
    (∀ {index : Nat} {phase : WorkerPhase α}, Closing index phase reached →
      Retires index phase reached) ∧
    (∀ {index : Nat} {joined : Drain α} {log : List (Event α)}, reached.control = .joining index →
      reached.step (.control .proceed) = some (joined, log) →
        LeftTo (({ stopTimeout } : Drain α).givenUp past) index joined) ∧
    ∀ {index : Nat} {signal : Signal} {queued : List α} {counted last : Drain α}
        {actions : List (Action α)} {more : List (Event α)},
      reached.step (.work index signal) = some (counted, [.counted index queued]) →
        counted.steps actions = some (last, more) → (∀ later, .counted index later ∉ more) →
          last.workers[index]?.map Worker.phase = some .exited →
            (∀ removal ∈ counted.removals actions, removal.1 = index) →
              ∃ rest, rest <:+ queued ∧ last.queue = rest ++ pushedItems more := by
  have reaches := (Run.rest ({ stopTimeout } : Drain α)).steps past run
  have attended := Attended.steps (⟨by simp, by simp⟩ : Attended [] _) (coherent_fresh stopTimeout) run
  rw [List.nil_append] at reaches attended
  exact ⟨reaches.retires, attended.leftTo reaches.coherent, pushed_since_counted⟩

/-- A stop gives up on the first worker while that takes its batch; the second one sees its batch
through, and a stop waits until it is gone. -/
def stoppedBeside : List (Action Nat) :=
  [.push 1, .push 2] ++ starting ++ [.work 0 .proceed, .work 0 .proceed] ++ givingUp ++ starting ++
    gathering 1 ++ [.work 1 .proceed, .work 1 (.ended false), .work 1 .proceed, .call .stop,
      .control .proceed, .control .proceed, .work 1 .leave]

/-- The first worker has woken with the older of two items. -/
def wokenBeside : Drain Nat where
  queue := [2]
  workers := [{ phase := .woken 1 }]
  lifecycle := { Lifecycle.initial with state := .running }
  slot := some 0

theorem stopping_takes_one_batch_beside :
    (∃ (shown log : List (Event Nat)) (reached joined : Drain Nat),
      ({} : Drain Nat).steps stoppedBeside = some (reached, shown) ∧
      Closing 0 (.taking [1] 1) reached ∧ Retires 0 (.taking [1] 1) reached ∧
      reached.control = .joining 1 ∧ reached.step (.control .proceed) = some (joined, log) ∧
      LeftTo [0] 1 joined) ∧
    ∃ (shown more : List (Event Nat)) (counted last : Drain Nat),
      ({} : Drain Nat).steps ([.push 1, .push 2] ++ starting ++ [.work 0 .proceed]) =
        some (wokenBeside, shown) ∧
      wokenBeside.step (.work 0 .proceed) = some (counted, [.counted 0 [2]]) ∧
      counted.steps ([.push 3, .work 0 .proceed, .work 0 .proceed, .work 0 .proceed, .call .stop,
        .control .proceed, .control .proceed, .work 0 (.ended true), .work 0 .proceed,
        .control .proceed, .control .proceed, .push 4]) = some (last, more) ∧
      pushedItems more = [3, 4] ∧ ∃ rest, rest <:+ [2] ∧ last.queue = rest ++ pushedItems more := by
  have beside : ({} : Drain Nat).steps stoppedBeside = some (_, _) := rfl
  obtain ⟨retires, leftTo, -⟩ := stopping_takes_one_batch beside
  have woken : ({} : Drain Nat).steps ([.push 1, .push 2] ++ starting ++ [.work 0 .proceed]) =
    some (wokenBeside, _) := rfl
  obtain ⟨-, -, since⟩ := stopping_takes_one_batch woken
  have counts : wokenBeside.step (.work 0 .proceed) =
    some (wokenBeside.setWorker 0 { phase := .taking [1] 1 }, [.counted 0 [2]]) := rfl
  have goesOn : (wokenBeside.setWorker 0 { phase := .taking [1] 1 }).steps
      [.push 3, .work 0 .proceed, .work 0 .proceed, .work 0 .proceed, .call .stop,
        .control .proceed, .control .proceed, .work 0 (.ended true), .work 0 .proceed,
        .control .proceed, .control .proceed, .push 4] = some (_, _) := rfl
  exact ⟨⟨_, _, _, _, beside, rfl, retires rfl, rfl, rfl, leftTo rfl rfl⟩, _, _, _, _, woken, counts,
    goesOn, rfl, since counts goesOn (by simp) rfl (by decide)⟩

/-- The first worker goes on after the stop that waited for the second, and takes what is pushed then. -/
theorem stopped_queue_taken :
    ∃ (shown more : List (Event Nat)) (reached joined last : Drain Nat) (log : List (Event Nat)),
      ({} : Drain Nat).steps stoppedBeside = some (reached, shown) ∧
      reached.control = .joining 1 ∧ reached.step (.control .proceed) = some (joined, log) ∧
      joined.steps [.control .proceed, .push 3, .work 0 .proceed] = some (last, more) ∧
      last.control = .free ∧ last.isRunning = false ∧
      joined.queue = [] ∧ pushedItems more = [3] ∧ last.queue = [] :=
  ⟨_, _, _, _, _, _, rfl, rfl, rfl, rfl, rfl, rfl, rfl, rfl, rfl⟩

end FolderWatch.Drain
