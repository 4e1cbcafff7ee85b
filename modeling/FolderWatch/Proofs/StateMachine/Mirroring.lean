import FolderWatch.Proofs.StateMachine.Nesting
import FolderWatch.Proofs.StateMachine.Tellings
import Mathlib.Data.List.Chain

/-!
When a subscriber can mirror a machine. What one subscriber makes of a move in its call is told to all
before the next subscriber hears of the move itself, so a subscriber hears of the moves in the order in
which they were made exactly when none before it makes any.
-/

namespace FolderWatch.StateMachine

variable {σ ε : Type}

/-- A subscriber makes a move in a call: one is made between telling it of a move and telling the next
subscriber of that move. -/
def Intervenes (index : Nat) (log : List (Entry σ ε)) : Prop :=
  ∃ front between back serial id move current nextId nextMove now,
    log = front ++ .told serial index id move current :: between ++
      .told serial (index + 1) nextId nextMove now :: back ∧ made between ≠ []

/-- No subscriber before this one makes a move in a call. -/
def Quiet (index : Nat) (log : List (Entry σ ε)) : Prop :=
  ∀ earlier < index, ¬Intervenes earlier log

/-- The task is to tell subscriber `index` of move `serial`, or will have it told. -/
def Task.mentions (serial index : Nat) : Task σ ε → Prop
  | .announce about _ => about = serial
  | .tell about listener _ => about = serial ∧ listener = index
  | .fire .. | .announceTerminal .. | .tellTerminal .. | .giveBack .. => False

/-- What the subscriber will hear of by the task itself. -/
def due (index : Nat) : Task σ ε → List (Nat × Move σ ε)
  | .announce serial move => [(serial, move)]
  | .tell serial listener move => if listener = index then [(serial, move)] else []
  | .fire .. | .announceTerminal .. | .tellTerminal .. | .giveBack .. => []

/-- The calls that tell `count` subscribers of a move, from `start` on. -/
def row (serial : Nat) (move : Move σ ε) (start count : Nat) : List (Task σ ε) :=
  (List.range' start count).map (.tell serial · move)

/-- No task is to tell the subscriber, or one before it, of a move made already. -/
def Free (index : Nat) (tasks : List (Task σ ε)) : Prop :=
  ∀ task ∈ tasks, ∀ serial, ∀ listener ≤ index, ¬task.mentions serial listener

variable {machine after middle last : StateMachine σ ε} {serial index listener : Nat}
variable {log entries inner outer : List (Entry σ ε)} {move : Move σ ε}
variable {task : Task σ ε} {new tasks : List (Task σ ε)}

theorem Intervenes.extend (intervenes : Intervenes index inner) (front back : List (Entry σ ε)) :
    Intervenes index (front ++ inner ++ back) := by
  obtain ⟨before, between, later, serial, id, move, current, nextId, nextMove, now, rfl, moved⟩ :=
    intervenes
  exact ⟨front ++ before, between, later ++ back, serial, id, move, current, nextId, nextMove, now,
    by simp, moved⟩

theorem Quiet.of_append (quiet : Quiet index (inner ++ outer)) :
    Quiet index inner ∧ Quiet index outer := by
  constructor
  · intro earlier before intervenes
    exact quiet earlier before (intervenes.extend [] outer)
  · intro earlier before intervenes
    exact quiet earlier before (by simpa using intervenes.extend inner [])

theorem tells_of_split {id : Int} {current : σ} {front back : List (Entry σ ε)}
    (split : log = front ++ .told serial index id move current :: back) :
    Tells serial index log := ⟨id, move, current, by simp [split]⟩

/-- Where an intervening move stands in two logs put together. -/
theorem Intervenes.append (intervenes : Intervenes index (inner ++ outer)) :
    Intervenes index inner ∨ Intervenes index outer ∨
      ∃ front between serial id move current,
        inner = front ++ .told serial index id move current :: between ∧
        ∃ passed back nextId nextMove now,
          outer = passed ++ .told serial (index + 1) nextId nextMove now :: back ∧
          made (between ++ passed) ≠ [] := by
  obtain ⟨front, between, back, serial, id, move, current, nextId, nextMove, now, split, moved⟩ :=
    intervenes
  rw [List.append_assoc, List.cons_append] at split
  rcases Trace.append_eq_append_cons split with ⟨tail, innerSplit, rest⟩ | ⟨between', -, outerSplit⟩
  · rcases Trace.append_eq_append_cons rest.symm with
      ⟨later, tailSplit, -⟩ | ⟨passed, betweenSplit, outerSplit⟩
    · refine .inl ⟨front, between, later, serial, id, move, current, nextId, nextMove, now, ?_, moved⟩
      simp [innerSplit, tailSplit]
    · exact .inr (.inr ⟨front, tail, serial, id, move, current, innerSplit, passed, back, nextId,
        nextMove, now, outerSplit, betweenSplit ▸ moved⟩)
  · refine .inr (.inl ⟨between', between, back, serial, id, move, current, nextId, nextMove, now, ?_,
      moved⟩)
    simp [outerSplit]

theorem quiet_append
    (apart : ∀ serial, ∀ earlier < index, Tells serial earlier inner →
      ¬Tells serial (earlier + 1) outer) :
    Quiet index (inner ++ outer) ↔ Quiet index inner ∧ Quiet index outer := by
  constructor
  · exact Quiet.of_append
  · rintro ⟨first, second⟩ earlier before intervenes
    rcases intervenes.append with within | within |
      ⟨front, between, serial, id, move, current, innerSplit, passed, back, nextId, nextMove, now,
        outerSplit, -⟩
    · exact first earlier before within
    · exact second earlier before within
    · exact apart serial earlier before (tells_of_split innerSplit) (tells_of_split outerSplit)

/-- A call and all that is done in it, before the next subscriber is told of the same move. -/
theorem quiet_call {id nextId : Int} {nextMove : Move σ ε} {current now : σ}
    (before : listener < index)
    (within : ∀ earlier, ¬Tells serial earlier inner) (once : ¬Tells serial (listener + 1) outer)
    (apart : ∀ other, ∀ earlier < index, Tells other earlier inner →
      ¬Tells other (earlier + 1) (.told serial (listener + 1) nextId nextMove now :: outer)) :
    Quiet index (.told serial listener id move current :: inner ++
        .told serial (listener + 1) nextId nextMove now :: outer) ↔
      made inner = [] ∧ Quiet index inner ∧
        Quiet index (.told serial (listener + 1) nextId nextMove now :: outer) := by
  constructor
  · intro quiet
    obtain ⟨call, later⟩ := quiet.of_append
    rw [← List.singleton_append] at call
    refine ⟨?_, call.of_append.2, later⟩
    refine Classical.byContradiction fun moved => quiet listener before ?_
    exact ⟨[], inner, outer, serial, id, move, current, nextId, nextMove, now, by simp, moved⟩
  · rintro ⟨still, first, second⟩ earlier below intervenes
    rcases intervenes.append with inCall | later |
      ⟨front, between, other, _, _, _, callSplit, passed, back, _, _, _, restSplit, moved⟩
    · obtain ⟨front, between, back, other, _, _, _, _, _, _, split, moved⟩ := inCall
      cases front with
      | nil =>
          simp only [List.nil_append, List.cons_append, List.cons.injEq, Entry.told.injEq] at split
          obtain ⟨⟨rfl, rfl, -⟩, split⟩ := split
          exact within _ (tells_of_split split)
      | cons head front =>
          simp only [List.cons_append, List.cons.injEq] at split
          exact first earlier below ⟨front, between, back, other, _, _, _, _, _, _, split.2, moved⟩
    · exact second earlier below later
    · cases front with
      | nil =>
          simp only [List.nil_append, List.cons.injEq, Entry.told.injEq] at callSplit
          obtain ⟨⟨rfl, rfl, -⟩, rfl⟩ := callSplit
          cases passed with
          | nil => simp [still] at moved
          | cons head passed =>
              simp only [List.cons_append, List.cons.injEq] at restSplit
              exact once (tells_of_split restSplit.2)
      | cons head front =>
          simp only [List.cons_append, List.cons.injEq] at callSplit
          exact apart other earlier below (tells_of_split callSplit.2) (tells_of_split restSplit)

theorem Free.cons_iff {rest : List (Task σ ε)} : Free index (task :: rest) ↔
    (∀ serial, ∀ listener ≤ index, ¬task.mentions serial listener) ∧ Free index rest := by
  simp [Free]

theorem due_of_not_mentions (free : ∀ serial, ¬task.mentions serial index) : due index task = [] := by
  cases task with
  | announce serial => exact absurd rfl (free serial)
  | tell serial listener =>
      have other : listener ≠ index := fun same => free serial ⟨rfl, same⟩
      simp [due, other]
  | fire | announceTerminal | tellTerminal | giveBack => rfl

theorem Free.due (free : Free index tasks) : tasks.flatMap (due index) = [] := by
  rw [List.flatMap_eq_nil_iff]
  intro task member
  exact due_of_not_mentions fun serial => free task member serial index (Nat.le_refl _)

theorem row_succ (serial : Nat) (move : Move σ ε) (start count : Nat) :
    row serial move start (count + 1) =
      .tell serial start move :: row serial move (start + 1) count := by
  rw [row, List.range'_succ, List.map_cons, row]

theorem mentions_row {other start count : Nat} (member : task ∈ row serial move start count)
    (mentions : task.mentions other listener) : serial = other ∧ start ≤ listener := by
  obtain ⟨next, range, rfl⟩ := List.mem_map.mp member
  exact ⟨mentions.1, mentions.2 ▸ (List.mem_range'_1.mp range).1⟩

theorem due_row (serial : Nat) (move : Move σ ε) (start count : Nat) :
    (row serial move start count).flatMap (due index) =
      if start ≤ index ∧ index < start + count then [(serial, move)] else [] := by
  induction count generalizing start with
  | zero =>
      rw [if_neg (by omega)]
      rfl
  | succ count ih =>
      rw [row_succ, List.flatMap_cons, ih]
      simp only [due]
      by_cases here : start = index
      · rw [if_pos here, if_neg (by omega), if_pos (by omega), List.append_nil]
      · rw [if_neg here, List.nil_append]
        by_cases later : start + 1 ≤ index ∧ index < start + 1 + count
        · rw [if_pos later, if_pos (by omega)]
        · rw [if_neg later, if_neg (by omega)]

/-- No subscriber up to this one will hear of an earlier move, or the one task or row of tasks at the
head will tell it of one. -/
inductive Ready (index moves : Nat) : List (Task σ ε) → Prop
  | free {tasks : List (Task σ ε)} (free : Free index tasks) : Ready index moves tasks
  | announcing {tasks : List (Task σ ε)} {serial : Nat} {move : Move σ ε} (made : serial < moves)
      (free : Free index tasks) : Ready index moves (.announce serial move :: tasks)
  | telling {tasks : List (Task σ ε)} {serial start count : Nat} {move : Move σ ε}
      (made : serial < moves) (passed : start ≤ index) (awaits : index < start + count)
      (free : Free index tasks) :
      Ready index moves (row serial move start count ++ tasks)

theorem free_giveBackTo (caller : Option Int) (outcome : Outcome σ ε) :
    Free index (giveBackTo caller outcome) := by
  cases caller <;> simp [giveBackTo, Free, Task.mentions]

theorem free_fire (events : List ε) (caller : Option Int) :
    Free index (events.map (Task.fire (σ := σ) · caller)) := by
  simp [Free, Task.mentions]

theorem free_tellTerminal (serial : Nat) (reached : σ) (indexes : List Nat) :
    Free index (indexes.map (Task.tellTerminal (ε := ε) serial · reached)) := by
  simp [Free, Task.mentions]

variable [DecidableEq σ] [DecidableEq ε]

theorem TaskStep.mentions (step : TaskStep machine task after new entries)
    (tells : Tells serial index entries) : task.mentions serial index := by
  obtain ⟨id, move, current, shown⟩ := tells
  cases step with
  | tells here =>
      simp only [List.mem_singleton, Entry.told.injEq] at shown
      exact ⟨shown.1.symm, shown.2.1.symm⟩
  | _ => simp at shown

theorem TaskStep.mentions_new (step : TaskStep machine task after new entries) {later : Task σ ε}
    (member : later ∈ new) (mentions : later.mentions serial index) :
    task.mentions serial index ∨ machine.moves = serial ∧ serial < after.moves := by
  cases step with
  | applies =>
      simp only [giveBackTo, List.mem_cons, List.mem_map] at member
      rcases member with rfl | ⟨id, -, rfl⟩
      · exact .inr ⟨mentions, mentions ▸ Nat.lt_succ_self _⟩
      · exact mentions.elim
  | announces =>
      simp only [List.mem_append, List.mem_map, List.mem_singleton] at member
      rcases member with ⟨listener, -, rfl⟩ | rfl
      · exact .inl mentions.1
      · exact mentions.elim
  | refuses | tells | announcesTerminal | tellsTerminal =>
      obtain ⟨_, -, rfl⟩ := List.mem_map.mp member
      exact mentions.elim
  | tellsNobody | passes | tellsNobodyTerminal | givesBack => simp at member

/-- What the subscriber hears and is left to hear are what was due and the move made. -/
theorem TaskStep.heard_due (step : TaskStep machine task after new entries)
    (subscribed : index < machine.onMove.length) :
    heard index entries ++ new.flatMap (due index) = due index task ++ made entries := by
  cases step with
  | @applies event caller =>
      cases caller <;> rfl
  | @refuses event caller =>
      cases caller <;> rfl
  | announces =>
      rw [List.flatMap_append, List.range_eq_range', ← row, due_row, if_pos (by omega)]
      rfl
  | @tells serial listener move hook here =>
      rw [(free_fire hook.reaction (some hook.id)).due, List.append_nil]
      simp only [heard, due, made, List.filterMap_cons, List.filterMap_nil]
      split <;> simp_all
  | @tellsNobody serial listener move gone =>
      have other : listener ≠ index := by
        rintro rfl
        rw [List.getElem?_eq_none_iff] at gone
        omega
      simp [heard, made, due, other]
  | @announcesTerminal serial reached =>
      rw [(free_tellTerminal serial reached _).due]
      rfl
  | @tellsTerminal serial listener reached hook =>
      rw [(free_fire hook.reaction (some hook.id)).due]
      rfl
  | passes | tellsNobodyTerminal | givesBack => rfl

theorem Does.moves_le (does : Does machine tasks log last) : machine.moves ≤ last.moves := by
  induction does with
  | rest => exact Nat.le_refl _
  | step taken _ _ within goesOn => exact Nat.le_trans taken.moves_le (Nat.le_trans within goesOn)

theorem Does.made_serial (does : Does machine tasks log last) {serial : Nat} {move : Move σ ε}
    (member : (serial, move) ∈ made log) : machine.moves ≤ serial := by
  induction does with
  | rest => simp [made] at member
  | step taken within _ ih ih' =>
      simp only [made_append, List.mem_append] at member
      have first := taken.moves_le
      have second := within.moves_le
      rcases member with (now | inside) | later
      · obtain ⟨entry, shown, makes⟩ := List.mem_filterMap.mp now
        cases entry with
        | applied =>
            cases makes
            exact Nat.le_of_eq (taken.applied_serial shown).1.symm
        | refused | told | toldTerminal | returned => simp at makes
      · have := ih inside
        omega
      · have := ih' later
        omega

/-- Only moves made by the tasks, and those that they are about to tell of, are told. -/
theorem Does.tells (does : Does machine tasks log last) (tells : Tells serial index log) :
    machine.moves ≤ serial ∧ serial < last.moves ∨ ∃ task ∈ tasks, task.mentions serial index := by
  induction does with
  | rest => exact absurd tells not_tells_nil
  | @step machine after middle last task new tasks entries inner outer taken within goesOn ih ih' =>
      have first := taken.moves_le
      have second := within.moves_le
      have third := goesOn.moves_le
      rw [tells_append, tells_append] at tells
      rcases tells with (now | inside) | later
      · exact .inr ⟨task, List.mem_cons_self, taken.mentions now⟩
      · rcases ih inside with made | ⟨set, member, mentions⟩
        · exact .inl (by omega)
        · rcases taken.mentions_new member mentions with own | made
          · exact .inr ⟨task, List.mem_cons_self, own⟩
          · exact .inl (by omega)
      · rcases ih' later with made | ⟨left, member, mentions⟩
        · exact .inl (by omega)
        · exact .inr ⟨left, List.mem_cons_of_mem _ member, mentions⟩

/-- Firing events tells only of moves that they make. -/
theorem Does.tells_fired {events : List ε} {caller : Option Int}
    (does : Does machine (events.map (.fire · caller)) log last) (tells : Tells serial index log) :
    machine.moves ≤ serial ∧ serial < last.moves := by
  rcases does.tells tells with made | ⟨task, member, mentions⟩
  · exact made
  · exact (free_fire events caller task member serial index (Nat.le_refl _) mentions).elim

theorem Does.heard_perm (does : Does machine tasks log last)
    (subscribed : index < machine.onMove.length) :
    (heard index log).Perm (made log ++ tasks.flatMap (due index)) := by
  induction does with
  | rest => exact .refl _
  | @step machine after middle last task new tasks entries inner outer taken within goesOn ih ih' =>
      have now := taken.heard_due subscribed
      rw [← taken.onMove_length] at subscribed
      have inside := ih subscribed
      have later := ih' (within.onMove_length ▸ subscribed)
      -- The three parts come in another order on each side, so how often each telling occurs is compared.
      rw [List.perm_iff_count] at inside later ⊢
      intro telling
      have now := congrArg (List.count telling) now
      have inside := inside telling
      have later := later telling
      simp only [heard_append, made_append, List.flatMap_cons, List.count_append] at now inside later ⊢
      omega

omit [DecidableEq σ] [DecidableEq ε] in
theorem heard_told_other {id : Int} {current : σ} (other : listener ≠ index) :
    heard index (.told serial listener id move current :: log) = heard index log := by
  simp [heard, other]

omit [DecidableEq σ] [DecidableEq ε] in
theorem made_told {id : Int} {current : σ} :
    made (.told serial listener id move current :: log) = made log := rfl

omit [DecidableEq σ] [DecidableEq ε] in
theorem due_row_append {start count : Nat} (passed : start ≤ index) (awaits : index < start + count)
    (free : Free index tasks) :
    (row serial move start count ++ tasks).flatMap (due index) = [(serial, move)] := by
  rw [List.flatMap_append, due_row, if_pos ⟨passed, awaits⟩, free.due, List.append_nil]

omit [DecidableEq σ] [DecidableEq ε] in
theorem Ready.mentions_lt {moves : Nat} (ready : Ready index moves tasks) (member : task ∈ tasks)
    (upTo : listener ≤ index) (mentions : task.mentions serial listener) : serial < moves := by
  cases ready with
  | free free => exact absurd mentions (free task member serial listener upTo)
  | announcing made free =>
      rcases List.mem_cons.mp member with rfl | later
      · exact mentions ▸ made
      · exact absurd mentions (free task later serial listener upTo)
  | telling made _ _ free =>
      rcases List.mem_append.mp member with row | later
      · exact (mentions_row row mentions).1 ▸ made
      · exact absurd mentions (free task later serial listener upTo)

/-- What is told in one run of tasks is not told on in the next. -/
theorem Does.apart {first second : List (Task σ ε)} (front : Does machine first inner middle)
    (back : Does middle second outer last) (ready : Ready index machine.moves first)
    (free : Free index second) (serial listener : Nat) (before : listener < index)
    (tells : Tells serial listener inner) : ¬Tells serial (listener + 1) outer := by
  intro again
  have early : serial < middle.moves := by
    rcases front.tells tells with made | ⟨task, member, mentions⟩
    · exact made.2
    · exact Nat.lt_of_lt_of_le (ready.mentions_lt member (Nat.le_of_lt before) mentions) front.moves_le
  rcases back.tells again with made | ⟨task, member, mentions⟩
  · omega
  · exact free task member serial (listener + 1) before mentions

/-- The subscriber hears of what was due and then of the moves in the order in which they are made. -/
def InOrder (index : Nat) (tasks : List (Task σ ε)) (log : List (Entry σ ε)) : Prop :=
  heard index log = tasks.flatMap (due index) ++ made log

theorem Does.inOrder_append {first second : List (Task σ ε)} (front : Does machine first inner middle)
    (subscribed : index < machine.onMove.length) (free : Free index second) :
    InOrder index (first ++ second) (inner ++ outer) ↔
      InOrder index first inner ∧ InOrder index second outer := by
  have length := (front.heard_perm subscribed).length_eq
  simp only [InOrder, heard_append, made_append, List.flatMap_append, free.due, List.append_nil,
    List.nil_append]
  rw [← List.append_assoc]
  constructor
  · intro whole
    exact List.append_inj whole (by simpa [Nat.add_comm] using length)
  · rintro ⟨front, back⟩
    rw [front, back]

theorem TaskStep.ready (step : TaskStep machine task after new entries)
    (ready : Ready index machine.moves [task]) (subscribed : index < machine.onMove.length) :
    Ready index after.moves new := by
  cases step with
  | applies => exact .announcing (Nat.lt_succ_self _) (free_giveBackTo _ _)
  | refuses => exact .free (free_giveBackTo _ _)
  | @announces serial move =>
      have about : (Task.announce serial move).mentions serial index := rfl
      have made := ready.mentions_lt List.mem_cons_self (Nat.le_refl index) about
      rw [List.range_eq_range']
      exact .telling made (Nat.zero_le _) (by omega) (by simp [Free, Task.mentions])
  | tells | tellsTerminal => exact .free (free_fire _ _)
  | announcesTerminal => exact .free (free_tellTerminal _ _ _)
  | tellsNobody | passes | tellsNobodyTerminal | givesBack => exact .free (by simp [Free])

/-- A task that tells no subscriber before this one. -/
theorem TaskStep.inOrder_iff (taken : TaskStep machine task after new entries)
    (within : Does after new inner middle) (goesOn : Does middle tasks outer last)
    (ready : Ready index machine.moves [task]) (free : Free index tasks)
    (subscribed : index < machine.onMove.length)
    (silent : ∀ serial, ∀ earlier < index, ¬Tells serial earlier entries)
    (inside : InOrder index new inner ↔ Quiet index inner)
    (later : InOrder index tasks outer ↔ Quiet index outer) :
    InOrder index (task :: tasks) (entries ++ inner ++ outer) ↔
      Quiet index (entries ++ inner ++ outer) := by
  have alone : Quiet index entries := by
    rintro earlier before ⟨front, between, back, serial, _, _, _, _, _, _, split, -⟩
    rw [List.append_assoc, List.cons_append] at split
    exact silent serial earlier before (tells_of_split split)
  have quiet : Quiet index (entries ++ inner ++ outer) ↔ Quiet index inner ∧ Quiet index outer := by
    have first (serial earlier : Nat) (before : earlier < index)
        (tells : Tells serial earlier entries) : ¬Tells serial (earlier + 1) (inner ++ outer) :=
      absurd tells (silent serial earlier before)
    rw [List.append_assoc, quiet_append first,
      quiet_append (within.apart goesOn (taken.ready ready subscribed) free)]
    exact and_iff_right alone
  have now := taken.heard_due subscribed
  rw [quiet, ← inside, ← later, ← within.inOrder_append (taken.onMove_length ▸ subscribed) free]
  simp only [InOrder, List.append_assoc, heard_append, made_append, List.flatMap_cons,
    List.flatMap_append, free.due, List.append_nil] at now ⊢
  rw [← List.append_assoc (due index task), ← now, List.append_assoc, List.append_cancel_left_eq]

/-- A call that is the next task is made at once, and once. -/
theorem Does.tell_head (does : Does machine (.tell serial listener move :: tasks) log last)
    (subscribed : listener < machine.onMove.length) (made : serial < machine.moves)
    (once : ∀ task ∈ tasks, ¬task.mentions serial listener) :
    ∃ id current rest, log = .told serial listener id move current :: rest ∧
      ¬Tells serial listener rest := by
  cases does with
  | @step _ after middle _ _ new _ entries inner outer taken within goesOn =>
      have first := taken.moves_le
      have second := within.moves_le
      cases taken with
      | tellsNobody gone =>
          rw [List.getElem?_eq_none_iff] at gone
          omega
      | @tells _ _ _ hook here =>
          refine ⟨hook.id, machine.state, inner ++ outer, rfl, ?_⟩
          rw [tells_append]
          rintro (inside | later)
          · have new := within.tells_fired inside
            omega
          · rcases goesOn.tells later with new | ⟨task, member, mentions⟩
            · omega
            · exact once task member mentions

/-- A call to a subscriber before this one: what is made in it is heard of first. -/
theorem Does.inOrder_call {count : Nat} {id : Int} {current : σ} {events : List ε} {caller : Option Int}
    (within : Does machine (events.map (.fire · caller)) inner middle)
    (goesOn : Does middle (row serial move (listener + 1) (count + 1) ++ tasks) outer last)
    (before : listener < index) (awaits : index < listener + 1 + (count + 1))
    (subscribed : index < machine.onMove.length) (known : serial < machine.moves)
    (free : Free index tasks)
    (inside : InOrder index (events.map (.fire · caller)) inner ↔ Quiet index inner)
    (later : InOrder index (row serial move (listener + 1) (count + 1) ++ tasks) outer ↔
      Quiet index outer) :
    InOrder index (row serial move listener (count + 2) ++ tasks)
        (.told serial listener id move current :: inner ++ outer) ↔
      Quiet index (.told serial listener id move current :: inner ++ outer) := by
  have still := within.moves_le
  have apart (other earlier : Nat) (below : earlier < index) (tells : Tells other earlier inner) :
      ¬Tells other (earlier + 1) outer := by
    intro again
    have new := within.tells_fired tells
    rcases goesOn.tells again with made | ⟨task, member, mentions⟩
    · omega
    · rcases List.mem_append.mp member with next | rest
      · have same := (mentions_row next mentions).1
        omega
      · exact free task rest other (earlier + 1) below mentions
  have quiet : Quiet index (.told serial listener id move current :: inner ++ outer) ↔
      made inner = [] ∧ Quiet index inner ∧ Quiet index outer := by
    rw [row_succ, List.cons_append] at goesOn
    obtain ⟨nextId, now, rest, rfl, once⟩ := goesOn.tell_head
      (by rw [within.onMove_length]; omega) (by omega) (by
        intro task member mentions
        rcases List.mem_append.mp member with next | other
        · have := (mentions_row next mentions).2
          omega
        · exact free task other serial (listener + 1) before mentions)
    refine quiet_call before (fun earlier tells => ?_) once apart
    have := within.tells_fired tells
    omega
  have perm := within.heard_perm subscribed
  rw [(free_fire events caller).due, List.append_nil] at perm
  have reached : index < listener + (count + 2) := by omega
  rw [quiet, ← inside, ← later]
  simp only [InOrder, List.cons_append, heard_told_other (Nat.ne_of_lt before), made_told, heard_append,
    made_append, (free_fire events caller).due, due_row_append (Nat.le_of_lt before) reached free,
    due_row_append before awaits free, List.nil_append]
  constructor
  · intro whole
    -- A move heard of in the call would be heard of before this one, which is an earlier one.
    have first : heard index inner = [] := by
      refine Classical.byContradiction fun some => ?_
      obtain ⟨head, tail, split⟩ := List.exists_cons_of_ne_nil some
      rw [split, List.cons_append, List.cons.injEq] at whole
      have member : (serial, move) ∈ made inner := perm.mem_iff.mp (by simp [split, whole.1])
      have := within.made_serial member
      omega
    rw [first] at perm whole
    have none := perm.nil_eq.symm
    rw [none] at whole
    exact ⟨none, by rw [first, none], whole⟩
  · rintro ⟨none, order, rest⟩
    rw [order, none, rest, List.nil_append, List.nil_append]

theorem Does.inOrder_iff (does : Does machine tasks log last) (ready : Ready index machine.moves tasks)
    (subscribed : index < machine.onMove.length) : InOrder index tasks log ↔ Quiet index log := by
  -- The tasks at the head say which move the subscriber hears of first. Only if they go on to tell a
  -- subscriber before this one can moves be made in between.
  induction does with
  | rest =>
      refine ⟨fun _ => ?_, fun _ => rfl⟩
      rintro earlier - ⟨front, between, back, serial, _, _, _, _, _, _, split, -⟩
      simp at split
  | @step machine after middle last task new tasks entries inner outer taken within goesOn ih ih' =>
      have kept : index < after.onMove.length := taken.onMove_length ▸ subscribed
      have keptLater : index < middle.onMove.length := within.onMove_length ▸ kept
      have grown := Nat.le_trans taken.moves_le within.moves_le
      have last (alone : Ready index machine.moves [task]) (free : Free index tasks)
          (silent : ∀ serial, ∀ earlier < index, ¬Tells serial earlier entries) :
          InOrder index (task :: tasks) (entries ++ inner ++ outer) ↔
            Quiet index (entries ++ inner ++ outer) :=
        taken.inOrder_iff within goesOn alone free subscribed silent
          (ih (taken.ready alone subscribed) kept) (ih' (.free free) keptLater)
      generalize shown : task :: tasks = all at ready ⊢
      cases ready with
      | free free =>
          subst shown
          obtain ⟨here, later⟩ := Free.cons_iff.mp free
          refine last (.free (by simpa [Free] using here)) later fun serial earlier before tells => ?_
          exact here serial earlier (Nat.le_of_lt before) (taken.mentions tells)
      | announcing known free =>
          cases shown
          refine last (.announcing known (by simp [Free])) free fun serial earlier _ tells => ?_
          cases taken
          exact not_tells_nil tells
      | @telling rest serial start count move known passed awaits free =>
          obtain ⟨count, rfl⟩ : ∃ more, count = more + 1 := ⟨count - 1, by omega⟩
          rw [row_succ, List.cons_append, List.cons.injEq] at shown
          obtain ⟨rfl, rfl⟩ := shown
          by_cases here : start = index
          · have alone : Ready index machine.moves (row serial move start 1 ++ []) :=
              .telling known passed (by omega) (by simp [Free])
            rw [row_succ, List.cons_append]
            refine last alone ?_ ?_
            · intro task member serial listener upTo mentions
              rcases List.mem_append.mp member with next | other
              · have := (mentions_row next mentions).2
                omega
              · exact free task other serial listener upTo mentions
            · intro serial earlier before tells
              have := (taken.mentions tells).2
              omega
          · have before : start < index := by omega
            obtain ⟨count, rfl⟩ : ∃ more, count = more + 1 := ⟨count - 1, by omega⟩
            cases taken with
            | tellsNobody gone =>
                rw [List.getElem?_eq_none_iff] at gone
                omega
            | tells found =>
                exact within.inOrder_call goesOn before (by omega) kept known free
                  (ih (.free (free_fire _ _)) kept)
                  (ih' (.telling (Nat.lt_of_lt_of_le known grown) before (by omega) free) keptLater)

omit [DecidableEq σ] [DecidableEq ε] in
theorem Path.getLast {table moves : List (Move σ ε)} {first last : σ} (path : Path table first moves last)
    {call : Move σ ε} (final : moves.getLast? = some call) : call.target = last := by
  cases path with
  | rest => simp at final
  | step => simp_all

omit [DecidableEq σ] [DecidableEq ε] in
theorem Path.isChain {table moves : List (Move σ ε)} {first last : σ}
    (path : Path table first moves last) :
    moves.IsChain fun call next => call.target = next.source := by
  induction path with
  | rest => exact .nil
  | step path here counts ih =>
      refine List.isChain_append.mpr ⟨ih, .singleton _, ?_⟩
      intro call final next head
      cases head
      exact (path.getLast final).trans here.symm

/-- A subscriber can mirror the machine unless one that comes before it makes moves while it hears of
one. Each hears of every move once; it does so in the order in which they are made exactly if none
before it makes a move in a call. Then the state that one call tells of is where the next one begins,
and the last is the state of the machine. -/
theorem mirrors_iff {events : List ε} (fired : machine.fireAll events = (last, log))
    (subscribed : index < machine.onMove.length) :
    (heard index log).Perm (made log) ∧
    (heard index log = made log ↔ Quiet index log) ∧
    (heard index log = made log →
      let calls := (heard index log).map Prod.snd
      Path machine.table machine.state calls last.state ∧
      calls.IsChain (fun call next => call.target = next.source) ∧
      ∀ call, calls.getLast? = some call → call.target = last.state) := by
  have does := machine.does_fireAll events
  rw [fired] at does
  have free : Free index (events.map (Task.fire (σ := σ) · none)) := free_fire events none
  refine ⟨?_, ?_, fun order => ?_⟩
  · simpa [free.due] using does.heard_perm subscribed
  · simpa [InOrder, free.due] using does.inOrder_iff (.free free) subscribed
  · have path := does.path
    rw [movesOf_eq, ← order] at path
    exact ⟨path, path.isChain, fun call => path.getLast⟩

/-- Two subscribers of which the second answers the first start with a stop. -/
def answeredLast : Lifecycle := { Lifecycle.initial with onMove := [⟨1, []⟩, ⟨2, [[.stop]]⟩] }

/-- Both mirror the machine: what the second one makes of a move the first has heard of. -/
theorem mirrors_answeredLast :
    ∃ last log, answeredLast.fireAll [.start, .stop, .start] = (last, log) ∧
      1 < answeredLast.onMove.length ∧ Quiet 1 log ∧
      heard 1 log = [(0, ⟨.stopped, .start, .running⟩), (1, ⟨.running, .stop, .stopped⟩),
        (2, ⟨.stopped, .start, .running⟩)] ∧
      last.state = .running ∧
      Path Lifecycle.initial.table .stopped ((heard 1 log).map Prod.snd) last.state := by
  have fired : answeredLast.fireAll [.start, .stop, .start] = (_, _) := rfl
  have subscribed : 1 < answeredLast.onMove.length := by decide
  obtain ⟨-, quiet, mirrors⟩ := mirrors_iff fired subscribed
  have order : heard 1 (answeredLast.fireAll [.start, .stop, .start]).2 =
      made (answeredLast.fireAll [.start, .stop, .start]).2 := by decide
  exact ⟨_, _, fired, subscribed, quiet.mp order, by decide, by decide, (mirrors order).1⟩

/-- Two subscribers of which the first answers the first start with a stop. -/
def answeredFirst : Lifecycle := { Lifecycle.initial with onMove := [⟨1, [[.stop]]⟩, ⟨2, []⟩] }

/-- The second subscriber hears of the stop before the start that was made before it, and when all is
told it was told last that the machine is running, which has stopped. -/
theorem not_mirrors_answeredFirst :
    ∃ last log, answeredFirst.fireAll [.start] = (last, log) ∧ 1 < answeredFirst.onMove.length ∧
      made log = [(0, ⟨.stopped, .start, .running⟩), (1, ⟨.running, .stop, .stopped⟩)] ∧
      heard 1 log = [(1, ⟨.running, .stop, .stopped⟩), (0, ⟨.stopped, .start, .running⟩)] ∧
      (heard 1 log).getLast?.map (·.2.target) ≠ some last.state :=
  ⟨_, _, rfl, by decide⟩

end FolderWatch.StateMachine
