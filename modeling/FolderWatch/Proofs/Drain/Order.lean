import FolderWatch.Proofs.Drain.Batches

/-!
Which order a drain keeps when stops give up on their workers. Every worker takes from one queue, so
each hands over what it took in the order in which it was pushed. Whether all of them together do is
up to who gets the callback next: nothing makes a worker wait for one that took its batch earlier.
-/

namespace FolderWatch.Drain

open Trace

variable {α : Type} {drain after last : Drain α} {shown more : List (Event α)}
variable {index : Nat} {worker : Worker α} {phase : WorkerPhase α} {queue : List α}

def inHandAfter (before : List Nat) : Event α → List Nat
  | .woke worker _ => worker :: before
  | .began worker _ => before.filter (· ≠ worker)
  | _ => before

/-- The workers that have a batch in hand: woken, and the call with it not begun. -/
def inHand (shown : List (Event α)) : List Nat := shown.foldl inHandAfter []

/-- A worker wakes only when no batch is in hand. One in a call may go on. -/
def TakenAlone (past : List (Event α)) : Event α → Prop
  | .woke .. => inHand past = []
  | _ => True

instance decidableTakenAlone (past : List (Event α)) :
    (event : Event α) → Decidable (TakenAlone past event)
  | .woke .. => inferInstanceAs (Decidable (inHand past = []))
  | .pushed .. | .counted .. | .began .. | .ended .. | .logged .. | .returned .. => isTrue trivial

/-- The batches that one worker handed to the callback. -/
def handedBy (index : Nat) (shown : List (Event α)) : List (List α) :=
  shown.filterMap fun event =>
    match event with
    | .began worker batch => if worker = index then some batch else none
    | _ => none

def heldBy (drain : Drain α) (index : Nat) : List α :=
  (drain.workers[index]?.map Worker.held).getD []

@[simp] theorem inHand_append (first second : List (Event α)) :
    inHand (first ++ second) = second.foldl inHandAfter (inHand first) :=
  List.foldl_append

@[simp] theorem handedBy_append (index : Nat) (first second : List (Event α)) :
    handedBy index (first ++ second) = handedBy index first ++ handedBy index second :=
  List.filterMap_append

theorem inHandAfter_of_callers (callers : ∀ event ∈ shown, event.IsCallers) (before : List Nat) :
    shown.foldl inHandAfter before = before :=
  foldl_of_callers callers (fun state event isCallers => by
    cases event <;> simp_all [Event.IsCallers, inHandAfter]) before

theorem handedBy_of_callers (callers : ∀ event ∈ shown, event.IsCallers) (index : Nat) :
    handedBy index shown = [] :=
  filterMap_of_callers callers fun event isCallers => by
    cases event <;> simp_all [Event.IsCallers]

theorem WorkersMove.heldBy_eq {workers next : List (Worker α)} (move : WorkersMove workers next)
    (index : Nat) :
    (next[index]?.map Worker.held).getD [] = (workers[index]?.map Worker.held).getD [] := by
  cases move with
  | kept => rfl
  | spawned =>
      rw [getElem?_append_one]
      split
      · rename_i equal
        simp [equal, Worker.held]
      · rfl
  | closed closing =>
      rw [List.getElem?_modify]
      cases workers[index]? with
      | none => rfl
      | some worker => by_cases same : closing = index <;> simp [same, Worker.held]

theorem heldBy_of_here (here : drain.workers[index]? = some worker) :
    drain.heldBy index = worker.held := by
  simp [heldBy, here]

theorem heldBy_set (here : drain.workers[index]? = some worker) (other : Nat) :
    heldBy { drain with queue, workers := drain.workers.set index { worker with phase } } other =
      if other = index then Worker.held { worker with phase } else drain.heldBy other := by
  obtain ⟨below, -⟩ := List.getElem?_eq_some_iff.mp here
  simp only [heldBy, List.getElem?_set]
  by_cases same : other = index
  · simp [same, below]
  · simp [same, Ne.symm same]

/-! ### One queue for all workers -/

/-- What a worker takes out of the queue goes behind what it holds, and what it hands over comes
from the front of that. -/
theorem WorkerMove.draws (move : WorkerMove drain index worker phase queue shown) :
    ∃ drawn, drain.queue = drawn ++ queue ∧
      worker.held ++ drawn =
        (handedBatches shown).flatten ++ Worker.held { worker with phase } := by
  cases move with
  | @wakes first rest was queued =>
      exact ⟨[first], queued, by simp [Worker.held, handedBatches, was]⟩
  | @takes batch rest left item was queued =>
      exact ⟨[item], queued, by simp [Worker.held, handedBatches, was]⟩
  | heeds was | counts was | completes was | calls was =>
      exact ⟨[], rfl, by simp [Worker.held, handedBatches, was]⟩
  | returns panicked was =>
      exact ⟨[], rfl, by cases panicked <;> simp [Worker.held, handedBatches, was]⟩
  | turns was =>
      exact ⟨[], rfl, by cases closed : worker.closed <;> simp [Worker.held, handedBatches, was]⟩

theorem WorkerMove.handedBy_eq (move : WorkerMove drain index worker phase queue shown)
    (other : Nat) :
    handedBy other shown = if other = index then handedBatches shown else [] := by
  cases move with
  | calls => by_cases same : other = index <;> simp [handedBy, handedBatches, same, eq_comm]
  | returns panicked => cases panicked <;> simp [handedBy, handedBatches]
  | _ => simp [handedBy, handedBatches]

/-- The items taken out of the queue so far, each with the worker that took it: they are the items
pushed, and each worker's part of them is what it handed over and what it holds. -/
structure Drawn (past : List (Event α)) (drain : Drain α) (drawn : List (Nat × α)) : Prop where
  taken : drawn.map Prod.snd ++ drain.queue = pushedItems past
  parts : ∀ index, (drawn.filter (·.1 = index)).map Prod.snd =
    (handedBy index past).flatten ++ drain.heldBy index

theorem filter_tagged (index other : Nat) (items : List α) :
    ((items.map fun item => (index, item)).filter (·.1 = other)).map Prod.snd =
      if other = index then items else [] := by
  by_cases same : other = index
  · subst other
    simp [List.filter_map, Function.comp_def]
  · simp [List.filter_map, Function.comp_def, same, Ne.symm same]

theorem Drawn.move {drawn : List (Nat × α)} (account : Drawn shown drain drawn)
    (move : Move drain after more) : ∃ further, Drawn (shown ++ more) after further := by
  cases move with
  | pushes item =>
      refine ⟨drawn, ?_, ?_⟩
      · rw [pushedItems_append, ← account.taken, List.append_assoc]
        rfl
      · intro index
        rw [handedBy_append, account.parts index]
        simp [handedBy, heldBy]
  | acts queue workers callers =>
      refine ⟨drawn, ?_, ?_⟩
      · rw [queue, pushedItems_append, pushedItems_of_callers callers, List.append_nil]
        exact account.taken
      · intro index
        rw [handedBy_append, handedBy_of_callers callers, List.append_nil, heldBy,
          workers.heldBy_eq index]
        exact account.parts index
  | @works index worker phase queue _ here move =>
      obtain ⟨items, queued, passed⟩ := move.draws
      refine ⟨drawn ++ items.map fun item => (index, item), ?_, ?_⟩
      · rw [pushedItems_append, move.pushedItems, List.append_nil, ← account.taken, queued]
        simp [Function.comp_def]
      · intro other
        have part := account.parts other
        rw [handedBy_append, move.handedBy_eq, heldBy_set here]
        rw [List.filter_append, List.map_append, filter_tagged]
        by_cases same : other = index
        · subst other
          rw [heldBy_of_here here] at part
          simp only [if_true, part, List.flatten_append, List.append_assoc, passed]
        · simpa [same] using part

theorem Run.drawn {stopTimeout : TimeSpan} (run : Run { stopTimeout } shown last) :
    ∃ drawn, Drawn shown last drawn := by
  induction run with
  | rest => exact ⟨[], rfl, by simp [handedBy, heldBy]⟩
  | step action run taken ih =>
      obtain ⟨drawn, account⟩ := ih
      exact account.move (step_move taken)

theorem Run.own_order {stopTimeout : TimeSpan} (run : Run { stopTimeout } shown last)
    (index : Nat) :
    ((handedBy index shown).flatten ++ last.heldBy index).Sublist (pushedItems shown) := by
  obtain ⟨drawn, account⟩ := run.drawn
  rw [← account.parts index, ← account.taken]
  exact (List.filter_sublist.map Prod.snd).trans (List.sublist_append_left ..)

/-! ### One batch in hand at a time -/

/-- A worker has a batch in hand exactly when it holds items, and a batch being taken has some. -/
structure HandsFollow (past : List (Event α)) (drain : Drain α) : Prop where
  holds : ∀ index, index ∈ inHand past ↔ drain.heldBy index ≠ []
  begun : ∀ (index : Nat) (batch : List α) (left : Nat),
    drain.workers[index]?.map Worker.phase = some (.taking batch left) → batch ≠ []

theorem WorkerMove.mem_inHand (move : WorkerMove drain index worker phase queue more)
    (begun : ∀ batch left, worker.phase = .taking batch left → batch ≠ []) (before : List Nat)
    (follows : index ∈ before ↔ worker.held ≠ []) (other : Nat) :
    other ∈ more.foldl inHandAfter before ↔
      if other = index then Worker.held { worker with phase } ≠ [] else other ∈ before := by
  by_cases same : other = index
  · subst other
    cases move with
    | wakes => simp [inHandAfter, Worker.held]
    | heeds was | counts was | completes was =>
        simpa [inHandAfter, Worker.held, was] using follows
    | takes was =>
        have some := begun _ _ was
        simpa [inHandAfter, Worker.held, was, some] using follows
    | calls => simp [inHandAfter, Worker.held]
    | returns panicked was =>
        cases panicked <;> simpa [inHandAfter, Worker.held, was] using follows
    | turns was =>
        cases closed : worker.closed <;> simpa [inHandAfter, Worker.held, was, closed] using follows
  · cases move with
    | returns panicked => cases panicked <;> simp [inHandAfter, same]
    | _ => simp [inHandAfter, same]

theorem WorkersMove.begun {workers next : List (Worker α)} (move : WorkersMove workers next)
    {batch : List α} {left : Nat}
    (taking : next[index]?.map Worker.phase = some (.taking batch left)) :
    workers[index]?.map Worker.phase = some (.taking batch left) := by
  simp only [Option.map_eq_some_iff] at taking
  obtain ⟨worker, here, phase⟩ := taking
  rcases move.phase here with waiting | ⟨before, was, same⟩
  · simp [waiting] at phase
  · simp [was, same, phase]

theorem HandsFollow.move (follows : HandsFollow shown drain) (move : Move drain after more) :
    HandsFollow (shown ++ more) after := by
  cases move with
  | pushes item => exact ⟨by simpa [inHandAfter, heldBy] using follows.holds, follows.begun⟩
  | acts queue workers callers =>
      constructor
      · intro index
        rw [inHand_append, inHandAfter_of_callers callers, heldBy, workers.heldBy_eq index]
        exact follows.holds index
      · intro index batch left taking
        exact follows.begun index batch left (workers.begun taking)
  | @works index worker phase queue _ here move =>
      have begun : ∀ batch left, worker.phase = .taking batch left → batch ≠ [] := by
        intro batch left was
        exact follows.begun index batch left (by simp [here, was])
      constructor
      · intro other
        have own := follows.holds index
        rw [heldBy_of_here here] at own
        rw [inHand_append, move.mem_inHand begun _ own, heldBy_set here]
        by_cases same : other = index
        · simp [same]
        · simpa [same] using follows.holds other
      · intro other batch left taking
        rw [getElem?_set_phase here] at taking
        split at taking
        · cases move with
          | counts | takes =>
              cases taking
              simp
          | turns => cases closed : worker.closed <;> simp [closed] at taking
          | _ => cases taking
        · exact follows.begun other batch left taking

theorem Run.handsFollow {stopTimeout : TimeSpan} (run : Run { stopTimeout } shown last) :
    HandsFollow shown last := by
  induction run with
  | rest => exact ⟨by simp [inHand, heldBy], by simp⟩
  | step action run taken ih => exact ih.move (step_move taken)

theorem HandsFollow.empty_of_not_mem (follows : HandsFollow shown drain)
    (absent : index ∉ inHand shown) : drain.heldBy index = [] := by
  simpa [follows.holds index] using absent

theorem HandsFollow.others_hold_nothing (follows : HandsFollow shown drain)
    (alone : ∀ other ∈ inHand shown, other = index) :
    ∀ other (idle : Worker α), drain.workers[other]? = some idle → other ≠ index →
      idle.held = [] := by
  intro other idle found different
  rw [← heldBy_of_here found]
  exact follows.empty_of_not_mem fun member => different (alone other member)

theorem held_set (here : drain.workers[index]? = some worker)
    (same : Worker.held { worker with phase } = worker.held) :
    (drain.workers.set index { worker with phase }).flatMap Worker.held = drain.held := by
  obtain ⟨below, rfl⟩ := List.getElem?_eq_some_iff.mp here
  have within : index < (drain.workers.map Worker.held).length := by simpa using below
  have unchanged := List.set_getElem_self within
  rw [List.getElem_map] at unchanged
  rw [held, List.flatMap_def, List.flatMap_def, List.map_set, same, unchanged]

theorem WorkerMove.wakes_or_leaves (move : WorkerMove drain index worker phase queue more)
    (begun : ∀ batch left, worker.phase = .taking batch left → batch ≠ [])
    (empty : worker.held = []) : (∃ first, more = [.woke index first]) ∨ queue = drain.queue := by
  cases move with
  | wakes => exact .inl ⟨_, rfl⟩
  | takes was =>
      have some := begun _ _ was
      simp [Worker.held, was, some] at empty
  | _ => exact .inr rfl

/-- At most one worker has a batch in hand, and nothing is out of order. -/
structure OneInHand (past : List (Event α)) (drain : Drain α) : Prop where
  alone : ∀ first second, first ∈ inHand past → second ∈ inHand past → first = second
  sequenced : Sequenced past drain

theorem OneInHand.works (one : OneInHand shown drain) (follows : HandsFollow shown drain)
    (here : drain.workers[index]? = some worker)
    (move : WorkerMove drain index worker phase queue more)
    (taken : Always (fun past => TakenAlone (shown ++ past)) more) :
    OneInHand (shown ++ more)
      { drain with queue, workers := drain.workers.set index { worker with phase } } := by
  have begun : ∀ batch left, worker.phase = .taking batch left → batch ≠ [] := by
    intro batch left was
    exact follows.begun index batch left (by simp [here, was])
  have own := follows.holds index
  rw [heldBy_of_here here] at own
  have hands := move.mem_inHand begun (inHand shown) own
  -- Either no other worker has a batch in hand, or this one neither takes nor hands over.
  have cases : (∀ other ∈ inHand shown, other = index) ∨
      worker.held = [] ∧ queue = drain.queue := by
    by_cases mine : index ∈ inHand shown
    · exact .inl fun other member => one.alone other index member mine
    · have empty : worker.held = [] := by simpa [own] using mine
      rcases move.wakes_or_leaves begun empty with ⟨first, rfl⟩ | same
      · have nobody : inHand shown = [] := by simpa [TakenAlone] using always_singleton.mp taken
        exact .inl (by simp [nobody])
      · exact .inr ⟨empty, same⟩
  rcases cases with sole | ⟨empty, same⟩
  · have soleAfter : ∀ other ∈ inHand (shown ++ more), other = index := by
      intro other member
      rw [inHand_append, hands] at member
      by_cases equal : other = index
      · exact equal
      · exact sole other (by simpa [equal] using member)
    refine ⟨?_, one.sequenced.works here (follows.others_hold_nothing sole) move⟩
    intro first second firstMember secondMember
    rw [soleAfter first firstMember, soleAfter second secondMember]
  · have passed := move.held_queue
    rw [empty, same, List.nil_append, List.self_eq_append_left] at passed
    obtain ⟨handed, emptyAfter⟩ := List.append_eq_nil_iff.mp passed
    have unchanged : ∀ other, other ∈ inHand (shown ++ more) ↔ other ∈ inHand shown := by
      intro other
      rw [inHand_append, hands]
      split
      · rename_i equal
        rw [equal, own, emptyAfter, empty]
      · rfl
    constructor
    · intro first second firstMember secondMember
      exact one.alone first second ((unchanged first).mp firstMember)
        ((unchanged second).mp secondMember)
    · have sequenced := one.sequenced
      simp only [Sequenced] at sequenced ⊢
      rw [handedBatches_append, List.flatten_append, handed, pushedItems_append, move.pushedItems,
        List.append_nil, List.append_nil, ← sequenced, same]
      simp only [held]
      rw [held_set here (emptyAfter.trans empty.symm), held]

theorem OneInHand.move (one : OneInHand shown drain) (follows : HandsFollow shown drain)
    (move : Move drain after more)
    (taken : Always (fun past => TakenAlone (shown ++ past)) more) :
    OneInHand (shown ++ more) after := by
  cases move with
  | pushes item =>
      exact ⟨by simpa [inHandAfter] using one.alone, one.sequenced.push item⟩
  | acts queue workers callers =>
      refine ⟨?_, one.sequenced.acts queue workers callers⟩
      rw [inHand_append, inHandAfter_of_callers callers]
      exact one.alone
  | works here move => exact one.works follows here move taken

theorem Run.oneInHand {stopTimeout : TimeSpan} (run : Run { stopTimeout } shown last)
    (taken : Always TakenAlone shown) : OneInHand shown last := by
  induction run with
  | rest => exact ⟨by simp [inHand], rfl⟩
  | step action run goes ih =>
      obtain ⟨before, now⟩ := always_append.mp taken
      exact (ih before).move run.handsFollow (step_move goes) now

/-! ### Two batches in hand -/

theorem Run.trans {first middle : Drain α} (run : Run first shown middle)
    (further : Run middle more last) : Run first (shown ++ more) last := by
  induction further with
  | rest => simpa using run
  | step action further taken ih =>
      rw [← List.append_assoc]
      exact ih.step action taken

theorem WorkerMove.taken (move : WorkerMove drain index worker phase queue shown) :
    ∃ signal, drain.stepWorker index worker signal =
      some ({ drain with queue, workers := drain.workers.set index { worker with phase } },
        shown) := by
  cases move with
  | wakes was queued => exact ⟨.proceed, by simp [stepWorker, was, queued, setWorker]⟩
  | heeds was closed => exact ⟨.leave, by simp [stepWorker, was, closed, setWorker]⟩
  | counts was => exact ⟨.proceed, by simp [stepWorker, was, setWorker]⟩
  | @completes batch left was ready =>
      refine ⟨.proceed, ?_⟩
      cases left with
      | zero => simp [stepWorker, was, setWorker]
      | succ left =>
          have queued : drain.queue = [] := by simpa using ready
          simp [stepWorker, was, queued, setWorker]
  | takes was queued => exact ⟨.proceed, by simp [stepWorker, was, queued, setWorker]⟩
  | calls was idle => exact ⟨.proceed, by simp [stepWorker, was, idle, setWorker]⟩
  | returns panicked was => exact ⟨.ended panicked, by simp [stepWorker, was, setWorker]⟩
  | turns was => exact ⟨.proceed, by simp [stepWorker, was, setWorker]⟩

/-- One worker goes on to be as given; all others stay where they are, and nothing is pushed. -/
structure GoesOn (index : Nat) (worker : Worker α) (drain last : Drain α)
    (more : List (Event α)) : Prop where
  run : Run drain more last
  here : last.workers[index]? = some worker
  others : ∀ other, other ≠ index → last.workers[other]? = drain.workers[other]?
  unpushed : pushedItems more = []

theorem GoesOn.rest (here : drain.workers[index]? = some worker) :
    GoesOn index worker drain drain [] :=
  ⟨.rest drain, here, fun _ _ => rfl, rfl⟩

theorem GoesOn.move (goesOn : GoesOn index worker drain last shown)
    (move : WorkerMove last index worker phase queue more) :
    GoesOn index { worker with phase } drain
      { last with queue, workers := last.workers.set index { worker with phase } }
      (shown ++ more) := by
  obtain ⟨signal, taken⟩ := move.taken
  have stepped := taken
  rw [← Option.bind_some worker fun worker => last.stepWorker index worker signal,
    ← goesOn.here] at stepped
  obtain ⟨below, -⟩ := List.getElem?_eq_some_iff.mp goesOn.here
  refine ⟨goesOn.run.step (.work index signal) stepped, by simp [below], ?_, ?_⟩
  · intro other different
    rw [← goesOn.others other different]
    exact List.getElem?_set_ne (Ne.symm different)
  · rw [pushedItems_append, goesOn.unpushed, move.pushedItems, List.append_nil]

theorem isCalling_eq_false : drain.isCalling = false ↔
    ∀ (index : Nat) (worker : Worker α), drain.workers[index]? = some worker →
      worker.isCalling = false := by
  simp only [isCalling, List.any_eq_false, Bool.not_eq_true]
  constructor
  · intro idle index worker here
    exact idle worker (List.mem_of_getElem? here)
  · intro idle worker member
    obtain ⟨index, here⟩ := List.mem_iff_getElem?.mp member
    exact idle index worker here

theorem GoesOn.idle (goesOn : GoesOn index worker drain last more)
    (idle : drain.isCalling = false) (own : worker.isCalling = false) :
    last.isCalling = false := by
  rw [isCalling_eq_false] at idle ⊢
  intro other found there
  by_cases same : other = index
  · subst other
    cases goesOn.here.symm.trans there
    exact own
  · rw [goesOn.others other same] at there
    exact idle other found there

theorem GoesOn.gathers {closed : Bool} {batch : List α} {left : Nat}
    (goesOn : GoesOn index ⟨closed, .taking batch left⟩ drain last shown) :
    ∃ final rest, GoesOn index ⟨closed, .holding (batch ++ rest)⟩ drain final shown := by
  -- By induction on how many more it may take; an empty queue ends it early.
  induction left generalizing last batch with
  | zero => exact ⟨_, [], by simpa using goesOn.move (.completes rfl (.inl rfl))⟩
  | succ left ih =>
      cases queued : last.queue with
      | nil => exact ⟨_, [], by simpa using goesOn.move (.completes rfl (.inr queued))⟩
      | cons item rest =>
          obtain ⟨final, rest, further⟩ := ih (by simpa using goesOn.move (.takes rfl queued))
          exact ⟨final, item :: rest, by simpa using further⟩

theorem exists_complete (here : drain.workers[index]? = some worker) (holds : worker.held ≠ []) :
    ∃ last more rest,
      GoesOn index ⟨worker.closed, .holding (worker.held ++ rest)⟩ drain last more ∧
      handedBatches more = [] := by
  have goesOn := GoesOn.rest here
  obtain ⟨closed, phase⟩ := worker
  cases phase with
  | woken first =>
      obtain ⟨last, rest, complete⟩ := (goesOn.move (.counts rfl)).gathers
      exact ⟨last, _, rest, complete, rfl⟩
  | taking batch left =>
      obtain ⟨last, rest, complete⟩ := goesOn.gathers
      exact ⟨last, _, rest, complete, rfl⟩
  | holding batch => exact ⟨drain, [], [], by simpa [Worker.held] using goesOn, rfl⟩
  | waiting | calling | returned | exited => simp [Worker.held] at holds

/-- While the callback is free, a worker that holds items hands them over and ends the call. -/
theorem exists_handed {item : α} (idle : drain.isCalling = false)
    (holds : item ∈ drain.heldBy index) :
    ∃ last more, Run drain more last ∧ item ∈ (handedBatches more).flatten ∧
      pushedItems more = [] ∧ last.isCalling = false ∧
      ∀ other, other ≠ index → last.heldBy other = drain.heldBy other := by
  cases here : drain.workers[index]? with
  | none => simp [heldBy, here] at holds
  | some worker =>
      rw [heldBy_of_here here] at holds
      obtain ⟨middle, more, rest, complete, unhanded⟩ :=
        exists_complete here (List.ne_nil_of_mem holds)
      have begun := complete.move (.calls rfl (complete.idle idle rfl))
      have ended := begun.move (.returns false rfl)
      refine ⟨_, _, ended.run, ?_, ended.unpushed, ended.idle idle rfl, ?_⟩
      · rw [handedBatches_append, handedBatches_append, unhanded]
        simp [handedBatches, holds]
      · intro other different
        simp only [heldBy]
        rw [ended.others other different]

theorem CallsFollow.isCalling (follows : CallsFollow drain shown)
    (current : callInProgress shown = none) : drain.isCalling = false := by
  rw [isCalling_eq_false]
  rintro index ⟨closed, phase⟩ here
  cases phase with
  | calling batch =>
      have calls := (follows index batch).mp (by simp [here])
      simp [current] at calls
  | _ => rfl

/-- A call in progress can end, and no other worker has to go on for it. -/
theorem Run.exists_idle {stopTimeout : TimeSpan} (run : Run { stopTimeout } shown last) :
    ∃ idle more, Run last more idle ∧ pushedItems more = [] ∧ idle.isCalling = false ∧
      (∀ (index : Nat) (worker : Worker α), last.workers[index]? = some worker →
        worker.isCalling = false → idle.workers[index]? = some worker) ∧
      ∀ index, idle.heldBy index = last.heldBy index := by
  cases calling : last.isCalling with
  | false => exact ⟨last, [], .rest last, rfl, calling, fun _ _ here _ => here, fun _ => rfl⟩
  | true =>
      obtain ⟨⟨closed, phase⟩, member, calls⟩ := List.any_eq_true.mp calling
      obtain ⟨index, here⟩ := List.mem_iff_getElem?.mp member
      cases phase with
      | calling batch =>
          have ended := (GoesOn.rest here).move (.returns false rfl)
          refine ⟨_, _, ended.run, ended.unpushed, ?_, ?_, ?_⟩
          -- It was the only call in progress.
          · exact (run.trans ended.run).calls.isCalling (by simp [callAfter])
          · intro other worker there silent
            refine (ended.others other ?_).trans there
            rintro rfl
            cases here.symm.trans there
            simp [Worker.isCalling] at silent
          · intro other
            rw [heldBy_set here]
            split
            · rename_i same
              rw [same, heldBy_of_here here]
              rfl
            · rfl
      | _ => simp [Worker.isCalling] at calls

theorem Run.exists_first_handed {stopTimeout : TimeSpan} {first second : Nat} {item other : α}
    (run : Run { stopTimeout } shown last) (different : first ≠ second)
    (held : item ∈ last.heldBy first) (otherHeld : other ∈ last.heldBy second) :
    ∃ final more, Run last more final ∧ pushedItems more = [] ∧
      [item, other].Sublist (handedBatches more).flatten := by
  obtain ⟨idle, ending, ends, unpushed, free, -, same⟩ := run.exists_idle
  obtain ⟨middle, calling, calls, handed, quiet, freed, kept⟩ :=
    exists_handed free (same first ▸ held)
  have stillHeld : other ∈ middle.heldBy second := by
    rw [kept second (Ne.symm different), same second]
    exact otherHeld
  obtain ⟨final, last, lasts, otherHanded, silent, -, -⟩ := exists_handed freed stillHeld
  refine ⟨final, _, (ends.trans calls).trans lasts, by simp [unpushed, quiet, silent], ?_⟩
  rw [handedBatches_append, handedBatches_append, List.flatten_append, List.flatten_append]
  have pair := (List.singleton_sublist.mpr handed).append (List.singleton_sublist.mpr otherHanded)
  rw [List.append_assoc]
  exact pair.trans (List.sublist_append_right ..)

theorem idxOf_lt_of_sublist [DecidableEq α] {items : List α} {first second : α}
    (distinct : items.Nodup) (sublist : [first, second].Sublist items) :
    items.idxOf first < items.idxOf second := by
  have increasing : items.Pairwise fun one other => items.idxOf one < items.idxOf other := by
    rw [List.pairwise_iff_getElem]
    intro lower upper lowerBound upperBound ordered
    rwa [distinct.idxOf_getElem, distinct.idxOf_getElem]
  simpa using increasing.sublist sublist

/-- Two workers with batches in hand can hand them over against the order of the pushes. -/
theorem Run.exists_out_of_order {stopTimeout : TimeSpan} {first second : Nat}
    (run : Run { stopTimeout } shown last) (distinct : (pushedItems shown).Nodup)
    (different : first ≠ second) (firstInHand : first ∈ inHand shown)
    (secondInHand : second ∈ inHand shown) :
    ∃ final more, Run last more final ∧
      ¬(handedBatches (shown ++ more)).flatten.Sublist (pushedItems (shown ++ more)) := by
  classical
  obtain ⟨item, held⟩ := List.exists_mem_of_ne_nil _ ((run.handsFollow.holds first).mp firstInHand)
  obtain ⟨other, otherHeld⟩ :=
    List.exists_mem_of_ne_nil _ ((run.handsFollow.holds second).mp secondInHand)
  have placed {more : List (Event α)} {one two : α} (unpushed : pushedItems more = [])
      (handed : [one, two].Sublist (handedBatches more).flatten)
      (ordered : (handedBatches (shown ++ more)).flatten.Sublist (pushedItems (shown ++ more))) :
      (pushedItems shown).idxOf one < (pushedItems shown).idxOf two := by
    rw [handedBatches_append, List.flatten_append, pushedItems_append, unpushed,
      List.append_nil] at ordered
    exact idxOf_lt_of_sublist distinct
      ((handed.trans (List.sublist_append_right ..)).trans ordered)
  -- Whichever of the two items was pushed earlier, its worker goes last.
  by_cases earlier : (pushedItems shown).idxOf item < (pushedItems shown).idxOf other
  · obtain ⟨final, more, further, unpushed, handed⟩ :=
      run.exists_first_handed (Ne.symm different) otherHeld held
    refine ⟨final, more, further, fun ordered => ?_⟩
    have later := placed unpushed handed ordered
    omega
  · obtain ⟨final, more, further, unpushed, handed⟩ :=
      run.exists_first_handed different held otherHeld
    exact ⟨final, more, further, fun ordered => earlier (placed unpushed handed ordered)⟩

theorem WorkerMove.not_alone (move : WorkerMove drain index worker phase queue more)
    (broken : ¬Always (fun past => TakenAlone (shown ++ past)) more) :
    worker.held = [] ∧ inHand shown ≠ [] ∧ ∃ first, more = [.woke index first] := by
  cases move with
  | wakes was =>
      refine ⟨by simp [Worker.held, was], ?_, _, rfl⟩
      simpa [always_singleton, TakenAlone] using broken
  | returns panicked =>
      refine absurd (.of_forall fun past event member => ?_) broken
      cases panicked <;> simp at member <;> rcases member with rfl | rfl <;> trivial
  | counts | calls => exact absurd (always_singleton.mpr trivial) broken
  | heeds | completes | takes | turns => exact absurd (.nil _) broken

/-- When a worker first wakes while another has a batch in hand, both have. -/
theorem Run.exists_both_in_hand {stopTimeout : TimeSpan} (run : Run { stopTimeout } shown last)
    (broken : ¬Always TakenAlone shown) :
    ∃ past rest middle, shown = past ++ rest ∧ Run { stopTimeout } past middle ∧
      ∃ first second, first ≠ second ∧ first ∈ inHand past ∧ second ∈ inHand past := by
  induction run with
  | rest => exact absurd (.nil _) broken
  | @step middle last shown more action run taken ih =>
      by_cases before : Always TakenAlone shown
      · have now : ¬Always (fun past => TakenAlone (shown ++ past)) more :=
          fun now => broken (before.append now)
        refine ⟨shown ++ more, [], last, by simp, run.step action taken, ?_⟩
        cases step_move taken with
        | pushes item => exact absurd (always_singleton.mpr trivial) now
        | acts queue workers callers =>
            refine absurd (.of_forall fun past event member => ?_) now
            have isCallers := callers event member
            cases event <;> simp_all [Event.IsCallers, TakenAlone]
        | @works index worker phase queue _ here move =>
            obtain ⟨empty, inHands, first, rfl⟩ := move.not_alone now
            obtain ⟨other, member⟩ := List.exists_mem_of_ne_nil _ inHands
            refine ⟨index, other, ?_, by simp [inHandAfter], by simp [inHandAfter, member]⟩
            rintro rfl
            have holds := (run.handsFollow.holds index).mp member
            exact holds ((heldBy_of_here here).trans empty)
      · obtain ⟨past, rest, middle, rfl, reached, both⟩ := ih before
        exact ⟨past, rest ++ more, middle, by simp, reached, both⟩

/-- Each worker hands its items over in the order in which they were pushed. All together do as long
as no worker wakes while another has a batch in hand; from the first time that one does, the batches
can be handed over against the order of the pushes. -/
theorem push_order {stopTimeout : TimeSpan} (run : Run { stopTimeout } shown last) :
    (∀ index,
      ((handedBy index shown).flatten ++ last.heldBy index).Sublist (pushedItems shown)) ∧
    (Always TakenAlone shown →
      (handedBatches shown).flatten ++ last.held ++ last.queue = pushedItems shown) ∧
    ((pushedItems shown).Nodup → ¬Always TakenAlone shown →
      ∃ past rest middle, shown = past ++ rest ∧ Run { stopTimeout } past middle ∧
        ∃ final more, Run middle more final ∧
          ¬(handedBatches (past ++ more)).flatten.Sublist (pushedItems (past ++ more))) := by
  refine ⟨run.own_order, fun alone => (run.oneInHand alone).sequenced, fun distinct broken => ?_⟩
  obtain ⟨past, rest, middle, rfl, reached, first, second, different, firstInHand, secondInHand⟩ :=
    run.exists_both_in_hand broken
  have distinctPast : (pushedItems past).Nodup := by
    rw [pushedItems_append] at distinct
    exact (List.nodup_append.mp distinct).1
  exact ⟨past, rest, middle, rfl, reached,
    reached.exists_out_of_order distinctPast different firstInHand secondInHand⟩

/-- What the caller does to start a drain, and to stop it without waiting for a worker. -/
def starting : List (Action Nat) :=
  [.call .start, .control .proceed, .control .proceed, .control .proceed]

def givingUp : List (Action Nat) :=
  [.call .stop, .control .proceed, .control .proceed, .control .leave, .control .proceed]

def gathering (worker : Nat) : List (Action Nat) :=
  [.work worker .proceed, .work worker .proceed, .work worker .proceed]

/-- A worker left alone in its call is not overtaken, and one left alone before its call can be. -/
theorem push_order_left_alone :
    (∃ (shown : List (Event Nat)) (last : Drain Nat), Run {} shown last ∧
      handedBatches shown = [[1], [2]] ∧
      (handedBatches shown).flatten ++ last.held ++ last.queue = pushedItems shown) ∧
    ∃ (shown : List (Event Nat)) (last : Drain Nat), Run {} shown last ∧ inHand shown = [1, 0] ∧
      ∃ past rest middle, shown = past ++ rest ∧ Run {} past middle ∧
        ∃ final more, Run middle more final ∧
          ¬(handedBatches (past ++ more)).flatten.Sublist (pushedItems (past ++ more)) := by
  have inCall := (Run.rest ({} : Drain Nat)).steps
    (starting ++ [.push 1] ++ gathering 0 ++ [.work 0 .proceed] ++ givingUp ++
      starting ++ [.push 2] ++ gathering 1 ++ [.work 0 (.ended false), .work 1 .proceed]) rfl
  have inHands := (Run.rest ({} : Drain Nat)).steps
    (starting ++ [.push 1] ++ gathering 0 ++ givingUp ++ starting ++ [.push 2] ++ gathering 1) rfl
  refine ⟨⟨_, _, inCall, rfl, (push_order inCall).2.1 (by decide +kernel)⟩, _, _, inHands, rfl, ?_⟩
  exact (push_order inHands).2.2 (by decide +kernel) (by decide +kernel)

/-- The worker left alone has its batch in hand when the next one gets the callback. -/
theorem push_order_overtaken :
    ∃ (shown : List (Event Nat)) (last : Drain Nat), Run {} shown last ∧
      pushedItems shown = [1, 2] ∧ handedBatches shown = [[2], [1]] ∧
      ¬(handedBatches shown).flatten.Sublist (pushedItems shown) := by
  have run := (Run.rest ({} : Drain Nat)).steps
    (starting ++ [.push 1] ++ gathering 0 ++ givingUp ++ starting ++ [.push 2] ++ gathering 1 ++
      [.work 1 .proceed, .work 1 (.ended false), .work 0 .proceed]) rfl
  exact ⟨_, _, run, rfl, rfl, by decide⟩

end FolderWatch.Drain
