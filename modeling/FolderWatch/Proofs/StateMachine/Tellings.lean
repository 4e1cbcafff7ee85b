import FolderWatch.Proofs.StateMachine.Paths

/-!
Who hears of a move. The subscribers of moves are called one after another, then those of arrivals if
the state reached is a terminal one; each that had subscribed before the move is called exactly once.
Subscribers may fire events in between and other threads may make moves of their own: each move has
its serial, and the calls that tell of it are looked at by themselves.
-/

namespace FolderWatch.StateMachine

variable {σ ε : Type}

/-- A call that tells subscriber `index` of a move. -/
inductive Telling (σ ε : Type) where
  | moved (index : Nat) (id : Int) (move : Move σ ε)
  | arrived (index : Nat) (id : Int) (reached : σ)
  deriving DecidableEq, Repr

/-- The calls that tell of the move with this serial. -/
def tellings (serial : Nat) (log : List (Entry σ ε)) : List (Telling σ ε) :=
  log.filterMap fun entry =>
    match entry with
    | .told about index id move _ => if about = serial then some (.moved index id move) else none
    | .toldTerminal about index id reached _ =>
        if about = serial then some (.arrived index id reached) else none
    | _ => none

/-- The move that a task still has something to tell of. -/
def Task.about? : Task σ ε → Option Nat
  | .announce serial _ | .tell serial _ _ => some serial
  | .announceTerminal serial _ | .tellTerminal serial _ _ => some serial
  | .fire .. | .giveBack .. => none

/-- The tasks of a stack that are left to do until the move is told to all. -/
def untold (serial : Nat) (tasks : List (Task σ ε)) : List (Task σ ε) :=
  tasks.filter (·.about? = some serial)

def names (hooks : List (Hook ε)) : List Int := hooks.map Hook.id

def movedTellings (move : Move σ ε) (hearers : List Int) : List (Telling σ ε) :=
  hearers.zipIdx.map fun hearer => .moved hearer.2 hearer.1 move

def arrivedTellings (reached : σ) (hearers : List Int) : List (Telling σ ε) :=
  hearers.zipIdx.map fun hearer => .arrived hearer.2 hearer.1 reached

/-- Subscribers are only added, and so are terminal states. -/
structure Grows (before after : StateMachine σ ε) : Prop where
  onMove : names before.onMove <+: names after.onMove
  onTerminal : names before.onTerminal <+: names after.onTerminal
  terminal : before.terminal ⊆ after.terminal

/-- Who is told of a move made in `before`, seen from `after`: all that had subscribed before it,
and perhaps some that did so while it was being told. -/
structure Audience (before after : StateMachine σ ε) (reached : σ) (hearers arrivals : List Int) :
    Prop where
  subscribed : names before.onMove <+: hearers
  known : hearers <+: names after.onMove
  awaiting : reached ∈ before.terminal → names before.onTerminal <+: arrivals
  knownTerminal : arrivals <+: names after.onTerminal
  ordinary : reached ∉ after.terminal → arrivals = []

/-- How far telling of a move has come: which calls were made and which tasks are left. -/
inductive Stage (before after : StateMachine σ ε) (serial : Nat) (move : Move σ ε) :
    List (Telling σ ε) → List (Task σ ε) → Prop
  | unannounced : Stage before after serial move [] [.announce serial move]
  | telling (heard rest : List Int) (subscribed : names before.onMove <+: heard ++ rest)
      (known : heard ++ rest <+: names after.onMove) :
      Stage before after serial move (movedTellings move heard)
        ((List.range' heard.length rest.length).map (.tell serial · move) ++
          [.announceTerminal serial move.target])
  | arriving {hearers : List Int} (heard rest : List Int)
      (audience : Audience before after move.target hearers (heard ++ rest)) :
      Stage before after serial move
        (movedTellings move hearers ++ arrivedTellings move.target heard)
        ((List.range' heard.length rest.length).map (.tellTerminal serial · move.target))

variable {before after machine : StateMachine σ ε} {serial other : Nat} {move : Move σ ε}
variable {log entries : List (Entry σ ε)} {told : List (Telling σ ε)}
variable {task : Task σ ε} {new owed : List (Task σ ε)}

@[simp] theorem tellings_append (serial : Nat) (first second : List (Entry σ ε)) :
    tellings serial (first ++ second) = tellings serial first ++ tellings serial second :=
  List.filterMap_append

theorem movedTellings_snoc (move : Move σ ε) (heard : List Int) (id : Int) :
    movedTellings move (heard ++ [id]) =
      movedTellings move heard ++ [.moved heard.length id move] := by
  simp [movedTellings, List.zipIdx_append]

theorem arrivedTellings_snoc (reached : σ) (heard : List Int) (id : Int) :
    (arrivedTellings reached (heard ++ [id]) : List (Telling σ ε)) =
      arrivedTellings reached heard ++ [.arrived heard.length id reached] := by
  simp [arrivedTellings, List.zipIdx_append]

theorem movedTellings_append_left (move : Move σ ε) (heard rest : List Int) :
    movedTellings move heard <+: movedTellings move (heard ++ rest) := by
  simp [movedTellings, List.zipIdx_append]

theorem arrivedTellings_append_left (reached : σ) (heard rest : List Int) :
    (arrivedTellings reached heard : List (Telling σ ε)) <+:
      arrivedTellings reached (heard ++ rest) := by
  simp [arrivedTellings, List.zipIdx_append]

namespace Grows

theorem refl (machine : StateMachine σ ε) : Grows machine machine :=
  ⟨List.prefix_rfl, List.prefix_rfl, List.Subset.refl _⟩

theorem trans (first : Grows before machine) (second : Grows machine after) :
    Grows before after :=
  ⟨first.onMove.trans second.onMove, first.onTerminal.trans second.onTerminal,
    List.Subset.trans first.terminal second.terminal⟩

end Grows

theorem Audience.mono {reached : σ} {hearers arrivals : List Int}
    (audience : Audience before machine reached hearers arrivals) (grows : Grows machine after) :
    Audience before after reached hearers arrivals where
  subscribed := audience.subscribed
  known := audience.known.trans grows.onMove
  awaiting := audience.awaiting
  knownTerminal := audience.knownTerminal.trans grows.onTerminal
  ordinary := fun ordinary => audience.ordinary fun terminal => ordinary (grows.terminal terminal)

theorem Stage.mono (stage : Stage before machine serial move told owed)
    (grows : Grows machine after) : Stage before after serial move told owed := by
  cases stage with
  | unannounced => exact .unannounced
  | telling heard rest subscribed known =>
      exact .telling heard rest subscribed (known.trans grows.onMove)
  | arriving heard rest audience => exact .arriving heard rest (audience.mono grows)

theorem names_set {hooks : List (Hook ε)} {index : Nat} {hook : Hook ε}
    (here : hooks[index]? = some hook) : names (hooks.set index hook.afterCall) = names hooks := by
  obtain ⟨below, rfl⟩ := List.getElem?_eq_some_iff.mp here
  have within : index < (hooks.map Hook.id).length := by simpa using below
  have unchanged := List.set_getElem_self within
  rw [List.getElem_map] at unchanged
  simpa [names, List.map_set, Hook.afterCall] using unchanged

/-- The subscriber that is told next has the name that stands next in the list. -/
theorem id_of_prefix {hooks : List (Hook ε)} {heard rest : List Int} {id : Int}
    (known : heard ++ id :: rest <+: names hooks) :
    ∃ hook, hooks[heard.length]? = some hook ∧ hook.id = id := by
  have named : (names hooks)[heard.length]? = some id := by
    obtain ⟨more, whole⟩ := known
    rw [← whole]
    simp
  simpa [names] using named

@[simp] theorem untold_append (serial : Nat) (first second : List (Task σ ε)) :
    untold serial (first ++ second) = untold serial first ++ untold serial second :=
  List.filter_append ..

theorem untold_cons (task : Task σ ε) (tasks : List (Task σ ε)) :
    untold serial (task :: tasks) =
      if task.about? = some serial then task :: untold serial tasks else untold serial tasks := by
  simp [untold, List.filter_cons]

theorem untold_of_about {tasks : List (Task σ ε)}
    (about : ∀ task ∈ tasks, task.about? = some serial) : untold serial tasks = tasks :=
  List.filter_eq_self.mpr (by simpa using about)

theorem untold_of_not_about {tasks : List (Task σ ε)}
    (aside : ∀ task ∈ tasks, task.about? ≠ some serial) : untold serial tasks = [] :=
  List.filter_eq_nil_iff.mpr (by simpa using aside)

theorem untold_tell (indexes : List Nat) :
    untold serial (indexes.map (.tell serial · move)) =
      (indexes.map (.tell serial · move) : List (Task σ ε)) :=
  untold_of_about (by simp [Task.about?])

theorem untold_tellTerminal (indexes : List Nat) (reached : σ) :
    untold serial (indexes.map (.tellTerminal serial · reached)) =
      (indexes.map (.tellTerminal serial · reached) : List (Task σ ε)) :=
  untold_of_about (by simp [Task.about?])

theorem untold_announceTerminal (reached : σ) :
    untold serial [.announceTerminal serial reached] =
      ([.announceTerminal serial reached] : List (Task σ ε)) :=
  untold_of_about (by simp [Task.about?])

theorem untold_fire (events : List ε) (caller : Option Int) :
    untold serial (events.map (.fire · caller)) = ([] : List (Task σ ε)) :=
  untold_of_not_about (by simp [Task.about?])

theorem giveBackTo_about? {caller : Option Int} {outcome : Outcome σ ε} :
    ∀ later ∈ giveBackTo caller outcome, later.about? = none := by
  cases caller <;> simp [giveBackTo, Task.about?]

/-- The calls made are the first of those due to the audience, and all once no task is left. -/
theorem Stage.audience (stage : Stage before after serial move told owed)
    (grew : Grows before after) :
    ∃ hearers arrivals, Audience before after move.target hearers arrivals ∧
      told <+: movedTellings move hearers ++ arrivedTellings move.target arrivals ∧
      (owed = [] → told = movedTellings move hearers ++ arrivedTellings move.target arrivals) := by
  -- Until the arrival is announced, whoever awaits it now may yet be told.
  have open_ {hearers : List Int} (subscribed : names before.onMove <+: hearers)
      (known : hearers <+: names after.onMove) :
      ∃ arrivals, Audience before after move.target hearers arrivals := by
    by_cases terminal : move.target ∈ after.terminal
    · exact ⟨names after.onTerminal, subscribed, known, fun _ => grew.onTerminal, List.prefix_rfl,
        fun ordinary => absurd terminal ordinary⟩
    · exact ⟨[], subscribed, known, fun awaited => absurd (grew.terminal awaited) terminal,
        List.nil_prefix, fun _ => rfl⟩
  cases stage with
  | unannounced =>
      obtain ⟨arrivals, audience⟩ := open_ grew.onMove List.prefix_rfl
      exact ⟨_, arrivals, audience, List.nil_prefix, by simp⟩
  | telling heard rest subscribed known =>
      obtain ⟨arrivals, audience⟩ := open_ subscribed known
      refine ⟨_, arrivals, audience, ?_, by simp⟩
      exact (movedTellings_append_left move heard rest).trans (List.prefix_append ..)
  | @arriving hearers heard rest audience =>
      refine ⟨hearers, _, audience, ?_, ?_⟩
      · exact (List.prefix_append_right_inj _).mpr (arrivedTellings_append_left move.target heard rest)
      · intro none
        have nobody : rest = [] := by simpa using none
        simp [nobody]

variable [DecidableEq σ] [DecidableEq ε]

theorem TaskStep.grows (step : TaskStep machine task after new entries) : Grows machine after := by
  have same := Grows.refl machine
  cases step with
  | tells here => exact ⟨(names_set here).symm ▸ same.onMove, same.onTerminal, same.terminal⟩
  | tellsTerminal here =>
      exact ⟨same.onMove, (names_set here).symm ▸ same.onTerminal, same.terminal⟩
  | _ => exact ⟨same.onMove, same.onTerminal, same.terminal⟩

theorem TaskStep.moves_le (step : TaskStep machine task after new entries) :
    machine.moves ≤ after.moves := by
  cases step with
  | applies => exact Nat.le_succ _
  | _ => exact Nat.le_refl _

theorem TaskStep.applied_serial (step : TaskStep machine task after new entries)
    (applied : .applied serial move ∈ entries) : serial = machine.moves ∧ serial < after.moves := by
  cases step with
  | applies =>
      obtain ⟨rfl, -⟩ : serial = machine.moves ∧ move = _ := by simpa using applied
      exact ⟨rfl, Nat.lt_succ_self _⟩
  | _ => simp at applied

theorem TaskStep.about_of_tellings (step : TaskStep machine task after new entries)
    (tells : tellings serial entries ≠ []) : task.about? = some serial := by
  cases step with
  | tells | tellsTerminal => simpa [tellings, Task.about?] using tells
  | _ => simp [tellings] at tells

/-- A task leaves something to tell only of its own move and of one that it makes. -/
theorem TaskStep.about_of_new (step : TaskStep machine task after new entries) {later : Task σ ε}
    (member : later ∈ new) (about : later.about? = some serial) :
    task.about? = some serial ∨ ∃ move, .applied serial move ∈ entries := by
  cases step with
  | @applies event caller target =>
      rcases List.mem_cons.mp member with rfl | answer
      · obtain rfl : machine.moves = serial := by simpa [Task.about?] using about
        exact .inr ⟨_, List.mem_singleton_self _⟩
      · simp [giveBackTo_about? later answer] at about
  | refuses => simp [giveBackTo_about? later member] at about
  | announces =>
      simp only [List.mem_append, List.mem_map, List.mem_singleton] at member
      rcases member with ⟨index, -, rfl⟩ | rfl <;> exact .inl about
  | announcesTerminal =>
      obtain ⟨index, -, rfl⟩ := List.mem_map.mp member
      exact .inl about
  | tells | tellsTerminal =>
      obtain ⟨event, -, rfl⟩ := List.mem_map.mp member
      simp [Task.about?] at about
  | tellsNobody | passes | tellsNobodyTerminal | givesBack => simp at member

/-- A task about another move neither tells of this one nor leaves anything to tell of it. -/
theorem TaskStep.aside (step : TaskStep machine task after new entries)
    (made : serial < machine.moves) (different : task.about? ≠ some serial) :
    tellings serial entries = [] ∧ untold serial new = [] := by
  constructor
  · refine Classical.byContradiction fun tells => ?_
    exact different (step.about_of_tellings tells)
  · refine untold_of_not_about fun later member about => ?_
    rcases step.about_of_new member about with same | ⟨move, applied⟩
    · exact different same
    · have fresh := (step.applied_serial applied).1
      omega

/-- The first task left to do makes the next call, or finds out who is to be called. -/
theorem Stage.step (stage : Stage before machine serial move told (task :: owed))
    (grew : Grows before machine) (step : TaskStep machine task after new entries) :
    Stage before after serial move (told ++ tellings serial entries)
      (untold serial new ++ owed) := by
  -- The stage says which task is the first, and that task which step is taken.
  generalize split : task :: owed = tasks at stage
  cases stage with
  | unannounced =>
      obtain ⟨rfl, rfl⟩ : task = .announce serial move ∧ owed = [] := by simpa using split
      have start : Stage before machine serial move _ _ :=
        .telling [] (names machine.onMove) grew.onMove List.prefix_rfl
      cases step with
      | announces =>
          simpa [untold_tell, untold_announceTerminal, names, List.range_eq_range', movedTellings,
            tellings] using start
  | telling heard rest subscribed known =>
      cases rest with
      | nil =>
          obtain ⟨rfl, rfl⟩ : task = .announceTerminal serial move.target ∧ owed = [] := by
            simpa using split
          rw [List.append_nil] at subscribed known
          have arrives (terminal : move.target ∈ machine.terminal) :
              Stage before machine serial move _ _ :=
            .arriving [] (names machine.onTerminal)
              ⟨subscribed, known, fun _ => grew.onTerminal, List.prefix_rfl,
                fun ordinary => absurd terminal ordinary⟩
          cases step with
          | announcesTerminal terminal =>
              simpa [untold_tellTerminal, names, List.range_eq_range', arrivedTellings,
                tellings] using arrives terminal
          | passes ordinary =>
              have start : Stage before after serial move _ _ := .arriving [] []
                ⟨subscribed, known, fun terminal => absurd (grew.terminal terminal) ordinary,
                  List.nil_prefix, fun _ => rfl⟩
              simpa [untold, arrivedTellings, tellings] using start
      | cons id rest =>
          obtain ⟨rfl, rfl⟩ : task = .tell serial heard.length move ∧
              owed = (List.range' (heard.length + 1) rest.length).map (.tell serial · move) ++
                [.announceTerminal serial move.target] := by
            simpa [List.range'_succ] using split
          obtain ⟨hook, here, rfl⟩ := id_of_prefix known
          have further : Stage before machine serial move _ _ :=
            .telling (heard ++ [hook.id]) rest (by simpa using subscribed) (by simpa using known)
          have grows := step.grows
          cases step with
          | tells found =>
              cases here.symm.trans found
              simpa [untold_fire, tellings, movedTellings_snoc] using further.mono grows
          | tellsNobody gone => simp [gone] at here
  | arriving heard rest audience =>
      cases rest with
      | nil => simp at split
      | cons id rest =>
          obtain ⟨rfl, rfl⟩ : task = .tellTerminal serial heard.length move.target ∧
              owed = (List.range' (heard.length + 1) rest.length).map
                (.tellTerminal serial · move.target) := by
            simpa [List.range'_succ] using split
          obtain ⟨hook, here, rfl⟩ := id_of_prefix audience.knownTerminal
          have further : Stage before machine serial move _ _ :=
            .arriving (heard ++ [hook.id]) rest (by simpa using audience)
          have grows := step.grows
          cases step with
          | tellsTerminal found =>
              cases here.symm.trans found
              simpa [untold_fire, tellings, arrivedTellings_snoc] using further.mono grows
          | tellsNobodyTerminal gone => simp [gone] at here

namespace Shared

variable {shared later : Shared σ ε} {action : Action σ ε} {thread : Nat}

/-- Only moves that were made are told of or left to be told of. -/
structure Accounted (log : List (Entry σ ε)) (shared : Shared σ ε) : Prop where
  numbered : ∀ serial move, .applied serial move ∈ log → serial < shared.machine.moves
  told : ∀ serial, tellings serial log ≠ [] → ∃ move, .applied serial move ∈ log
  tasks : ∀ thread, ∀ task ∈ shared.tasksOf thread, ∀ serial, task.about? = some serial →
    ∃ move, .applied serial move ∈ log

theorem go_taskStep (taken : shared.step (.go thread) = some (later, entries)) :
    ∃ task tasks after new, shared.tasksOf thread = task :: tasks ∧
      TaskStep shared.machine task after new entries ∧
      later = { shared.setStack thread (new ++ tasks) with machine := after } := by
  simp only [Shared.step] at taken
  split at taken
  · simp at taken
  · rename_i task tasks stack
    cases taken
    exact ⟨task, tasks, _, _, stack, step_taskStep rfl, rfl⟩

theorem Accounted.step (accounted : Accounted log shared)
    (taken : shared.step action = some (later, entries)) : Accounted (log ++ entries) later := by
  cases action with
  | fire thread event caller =>
      cases taken
      rw [List.append_nil]
      refine ⟨accounted.numbered, accounted.told, ?_⟩
      intro other task member serial about
      simp only [setStack] at member
      split at member
      · rcases List.mem_cons.mp member with rfl | old
        · simp [Task.about?] at about
        · exact accounted.tasks thread task old serial about
      · exact accounted.tasks other task member serial about
  | go thread =>
      obtain ⟨task, tasks, after, new, stack, step, rfl⟩ := go_taskStep taken
      have top := accounted.tasks thread task (by simp [stack])
      refine ⟨?_, ?_, ?_⟩
      · intro serial move applied
        rcases List.mem_append.mp applied with old | now
        · exact Nat.lt_of_lt_of_le (accounted.numbered serial move old) step.moves_le
        · exact (step.applied_serial now).2
      · intro serial tells
        rw [tellings_append] at tells
        have known : ∃ move, .applied serial move ∈ log := by
          by_cases old : tellings serial log = []
          · exact top serial (step.about_of_tellings (by simpa [old] using tells))
          · exact accounted.told serial old
        obtain ⟨move, applied⟩ := known
        exact ⟨move, List.mem_append_left _ applied⟩
      · intro other left member serial about
        have known : (∃ move, .applied serial move ∈ log) ∨
            ∃ move, .applied serial move ∈ entries := by
          simp only [setStack] at member
          split at member
          · rcases List.mem_append.mp member with set | old
            · rcases step.about_of_new set about with own | made
              · exact .inl (top serial own)
              · exact .inr made
            · exact .inl (accounted.tasks thread left (by simp [stack, old]) serial about)
          · exact .inl (accounted.tasks other left member serial about)
        rcases known with ⟨move, old⟩ | ⟨move, now⟩
        · exact ⟨move, List.mem_append_left _ old⟩
        · exact ⟨move, List.mem_append_right _ now⟩
  | addMoveHook | addTerminalHook | addTerminalStates =>
      cases taken
      rw [List.append_nil]
      exact ⟨accounted.numbered, accounted.told, accounted.tasks⟩

theorem Run.accounted (run : Run { machine } log later) : Accounted log later := by
  induction run with
  | rest => exact ⟨by simp, by simp [tellings], by simp⟩
  | step action run taken ih => exact ih.step taken

omit [DecidableEq σ] [DecidableEq ε] in
theorem Accounted.fresh (accounted : Accounted log shared) :
    tellings shared.machine.moves log = [] ∧
      ∀ thread, untold shared.machine.moves (shared.tasksOf thread) = [] := by
  constructor
  · refine Classical.byContradiction fun tells => ?_
    obtain ⟨move, applied⟩ := accounted.told _ tells
    exact absurd (accounted.numbered _ move applied) (Nat.lt_irrefl _)
  · intro thread
    refine untold_of_not_about fun task member about => ?_
    obtain ⟨move, applied⟩ := accounted.tasks thread task member _ about
    exact absurd (accounted.numbered _ move applied) (Nat.lt_irrefl _)

/-- A move made by a thread is told of by that thread only, and so far as its stage says. -/
structure Follows (before : StateMachine σ ε) (thread serial : Nat) (move : Move σ ε)
    (told : List (Telling σ ε)) (shared : Shared σ ε) : Prop where
  made : serial < shared.machine.moves
  grew : Grows before shared.machine
  elsewhere : ∀ other, other ≠ thread → untold serial (shared.tasksOf other) = []
  stage : Stage before shared.machine serial move told (untold serial (shared.tasksOf thread))

omit [DecidableEq σ] [DecidableEq ε] in
theorem Follows.grow {told : List (Telling σ ε)}
    (follows : Follows before thread serial move told shared)
    (grows : Grows shared.machine machine) (moves : machine.moves = shared.machine.moves) :
    Follows before thread serial move told { shared with machine } :=
  ⟨moves ▸ follows.made, follows.grew.trans grows, follows.elsewhere, follows.stage.mono grows⟩

omit [DecidableEq σ] [DecidableEq ε] in
/-- No thread has more or less left to tell of a move if the one whose stack changes has not. -/
theorem untold_setStack {going : Nat} {tasks : List (Task σ ε)}
    (same : untold serial tasks = untold serial (shared.tasksOf going)) (thread : Nat) :
    untold serial ((shared.setStack going tasks).tasksOf thread) =
      untold serial (shared.tasksOf thread) := by
  simp only [setStack]
  split
  · rename_i equal
    rw [equal, same]
  · rfl

theorem Follows.go {going : Nat} {tasks : List (Task σ ε)}
    (follows : Follows before thread serial move told shared)
    (stack : shared.tasksOf going = task :: tasks)
    (step : TaskStep shared.machine task after new entries) :
    Follows before thread serial move (told ++ tellings serial entries)
      { shared.setStack going (new ++ tasks) with machine := after } := by
  obtain ⟨made, grew, elsewhere, stage⟩ := follows
  have grows := step.grows
  have kept := Nat.lt_of_lt_of_le made step.moves_le
  -- A task about the move is its thread's and goes on with its stage; any other leaves the stage as it is.
  by_cases about : task.about? = some serial
  · have same : going = thread := by
      refine Classical.byContradiction fun different => ?_
      have none := elsewhere going different
      simp [stack, untold_cons, about] at none
    subst going
    rw [stack, untold_cons, if_pos about] at stage
    refine ⟨kept, grew.trans grows, ?_, ?_⟩
    · intro other different
      simpa [setStack, different] using elsewhere other different
    · simpa [setStack] using stage.step grew step
  · obtain ⟨silent, nothing⟩ := step.aside made about
    have same : untold serial (new ++ tasks) = untold serial (shared.tasksOf going) := by
      rw [stack, untold_cons, if_neg about, untold_append, nothing, List.nil_append]
    refine ⟨kept, grew.trans grows, ?_, ?_⟩
    · intro other different
      exact (untold_setStack same other).trans (elsewhere other different)
    · rw [silent, List.append_nil]
      exact (untold_setStack same thread).symm ▸ stage.mono grows

theorem Follows.step {told : List (Telling σ ε)}
    (follows : Follows before thread serial move told shared)
    (taken : shared.step action = some (later, entries)) :
    Follows before thread serial move (told ++ tellings serial entries) later := by
  cases action with
  | go going =>
      obtain ⟨task, tasks, after, new, stack, step, rfl⟩ := go_taskStep taken
      exact follows.go stack step
  | fire firing event caller =>
      cases taken
      have same : untold serial (.fire event caller :: shared.tasksOf firing) =
          untold serial (shared.tasksOf firing) := by
        simp [untold_cons, Task.about?]
      obtain ⟨made, grew, elsewhere, stage⟩ := follows
      refine ⟨made, grew, ?_, ?_⟩
      · intro other different
        exact (untold_setStack same other).trans (elsewhere other different)
      · rw [untold_setStack same thread, tellings, List.filterMap_nil, List.append_nil]
        exact stage
  | addMoveHook hook =>
      cases taken
      have grows : Grows shared.machine (shared.machine.addMoveHook hook) :=
        ⟨by simp [names, addMoveHook], List.prefix_rfl, List.Subset.refl _⟩
      simpa [tellings] using follows.grow grows rfl
  | addTerminalHook hook =>
      cases taken
      have grows : Grows shared.machine (shared.machine.addTerminalHook hook) :=
        ⟨List.prefix_rfl, by simp [names, addTerminalHook], List.Subset.refl _⟩
      simpa [tellings] using follows.grow grows rfl
  | addTerminalStates states =>
      cases taken
      have grows : Grows shared.machine (shared.machine.addTerminalStates states) :=
        ⟨List.prefix_rfl, List.prefix_rfl, List.subset_append_left ..⟩
      simpa [tellings] using follows.grow grows rfl

theorem Run.follows {told : List (Telling σ ε)} {first last : Shared σ ε}
    (follows : Follows before thread serial move told first) (run : Run first log last) :
    Follows before thread serial move (told ++ tellings serial log) last := by
  induction run with
  | rest => simpa [tellings] using follows
  | step action run taken ih => simpa using ih.step taken

/-- From the moment a move is made, all that is told of it is what its thread tells from then on. -/
theorem Accounted.applied (accounted : Accounted log shared)
    (taken : shared.step (.go thread) = some (later, [.applied serial move])) :
    tellings serial log = [] ∧ Follows shared.machine thread serial move [] later := by
  obtain ⟨silent, fresh⟩ := accounted.fresh
  obtain ⟨task, tasks, after, new, stack, step, rfl⟩ := go_taskStep taken
  cases step with
  | @applies event caller target found =>
      refine ⟨silent, Nat.lt_succ_self _, ?_, ?_, ?_⟩
      · exact ⟨List.prefix_rfl, List.prefix_rfl, List.Subset.refl _⟩
      · intro other different
        simpa [setStack, different] using fresh other
      · have answer : untold shared.machine.moves
            (giveBackTo caller (.moved target) : List (Task σ ε)) = [] :=
          untold_of_not_about fun task member => by simp [giveBackTo_about? task member]
        have below : untold shared.machine.moves tasks = [] := by
          simpa [stack, untold_cons, Task.about?] using fresh thread
        simp only [setStack, if_true, List.cons_append, untold_cons, Task.about?, untold_append,
          answer, below, List.append_nil]
        exact .unannounced

/-- A thread that goes on comes to an end, for subscribers fire a finite number of events. -/
theorem exists_idle (shared : Shared σ ε) (thread : Nat) :
    ∃ log last, Run shared log last ∧ last.tasksOf thread = [] := by
  generalize enough : shared.machine.work (shared.tasksOf thread) = fuel
  induction fuel using Nat.strongRecOn generalizing shared with
  | ind fuel ih =>
      cases stack : shared.tasksOf thread with
      | nil => exact ⟨[], shared, .rest shared, stack⟩
      | cons task tasks =>
          have less := shared.machine.step_work task tasks
          let next := { shared.setStack thread ((shared.machine.step task).2.1 ++ tasks) with
            machine := (shared.machine.step task).1 }
          have taken : shared.step (.go thread) = some (next, (shared.machine.step task).2.2) := by
            simp only [Shared.step, stack, next]
          rw [← stack, enough] at less
          obtain ⟨log, last, run, idle⟩ := ih _ less next (by simp [next, setStack])
          exact ⟨_, last, ((Run.rest shared).step _ taken).trans run, idle⟩

end Shared

end FolderWatch.StateMachine
