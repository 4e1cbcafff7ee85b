import FolderWatch.Proofs.Monitor.Silence

/-!
Which directory the baseline is of. A cycle that is on its way while the directory changes may carry
over what it knows of the old one. It cannot where the directory changes at a calm moment.
-/

namespace FolderWatch.Monitor

open Trace

/-- Whether an actor entered a cycle since the directory last changed. -/
def Event.entersSince (actor : Actor) (since : Bool) : Event → Bool
  | .entered other => since || other = actor
  | .returned (.setDirectory _) (.ok _) => false
  | _ => since

def enteredSince (actor : Actor) (past : List Event) : Bool :=
  past.foldl (Event.entersSince actor) false

/-- What the marks of a run must be like if nothing crosses a change of the directory: baselines are
published by cycles that began after it, and no recognizer is given snapshots of two directories. -/
def Fair (past : List Event) : Event → Prop
  | .recalled _ baseline => baseline = standing past
  | .consulted _ _ comparison =>
      comparison.before.directory.Same comparison.after.directory
  | .published actor _ => enteredSince actor past = true
  | _ => True

def Matches (monitor : Monitor) (directory : Path) : Prop :=
  ∀ before, monitor.baseline = some before → before.directory.Same directory

/-- The directory may change to another: no cycle is past its check, and none is about to look up the
directory unless the baseline will still be of it. -/
structure Calm (monitor : Monitor) (directory : Path) : Prop where
  uncommitted : ∀ actor phase, monitor.cycleOf actor = some phase → phase.isCommitted = false
  settled : Matches monitor directory ∨ ∀ actor phase, monitor.cycleOf actor = some phase →
    phase ≠ .waiting ∧ phase ≠ .entered

def Fresh (past : List Event) (monitor : Monitor) (actor : Actor) (directory : Path) : Prop :=
  directory = monitor.directory ∧ enteredSince actor past = true

def FreshOrStale (past : List Event) (monitor : Monitor) (actor : Actor) (directory : Path) :
    Prop :=
  Fresh past monitor actor directory ∨ Stale monitor actor

def Compares (past : List Event) (monitor : Monitor) (actor : Actor) (comparison : Comparison) :
    Prop :=
  FreshOrStale past monitor actor comparison.after.directory ∧
    comparison.before.directory.Same comparison.after.directory

/-- What is known of a cycle in a phase. -/
def Fits (past : List Event) (monitor : Monitor) (actor : Actor) : CyclePhase → Prop
  | .waiting | .leaving _ => True
  | .entered => FreshOrStale past monitor actor monitor.directory
  | .located directory =>
      FreshOrStale past monitor actor directory ∧ Matches monitor directory
  | .captured directory after =>
      FreshOrStale past monitor actor directory ∧ Matches monitor directory ∧
        after.directory = directory
  | .adopting directory after =>
      FreshOrStale past monitor actor directory ∧ after.directory = directory
  | .comparing comparison | .equipped comparison _ => Compares past monitor actor comparison
  | .recognizing survey | .consulting _ survey =>
      Compares past monitor actor survey.comparison
  | .dispatching comparison _ _ | .delivering _ comparison _ _ =>
      Fresh past monitor actor comparison.after.directory
  | .storing after _ => Fresh past monitor actor after.directory

variable {monitor after : Monitor} {actor : Actor} {phase : CyclePhase} {shown past : List Event}

theorem comparison_note (survey : Survey) (activity : Activity) (answer : Option (List Change)) :
    (survey.note activity answer).comparison = survey.comparison := by
  obtain ⟨found, noted⟩ := exists_note survey activity answer
  rw [noted]

theorem FreshOrStale.fresh {directory : Path} (known : FreshOrStale past monitor actor directory)
    (current : monitor.isCurrent actor = true) : Fresh past monitor actor directory := by
  rcases known with fresh | stale
  · exact fresh
  · simp [stale.notCurrent] at current

theorem Fits.mono {later : List Event} (fits : Fits past monitor actor phase)
    (known : ∀ directory, FreshOrStale past monitor actor directory →
      FreshOrStale later after actor directory)
    (entered : phase = .entered → FreshOrStale past monitor actor monitor.directory →
      FreshOrStale later after actor after.directory)
    (committed : phase.isCommitted = true → ∀ directory, Fresh past monitor actor directory →
      Fresh later after actor directory)
    (still : ∀ directory, Matches monitor directory → Matches after directory) :
    Fits later after actor phase := by
  cases phase with
  | waiting | leaving => trivial
  | entered => exact entered rfl fits
  | located directory => exact ⟨known _ fits.1, still _ fits.2⟩
  | captured directory after => exact ⟨known _ fits.1, still _ fits.2.1, fits.2.2⟩
  | adopting directory after => exact ⟨known _ fits.1, fits.2⟩
  | comparing | equipped | recognizing | consulting => exact ⟨known _ fits.1, fits.2⟩
  | dispatching | delivering | storing => exact committed rfl _ fits

theorem CycleMove.entersSince {step : CycleStep} (move : CycleMove monitor actor phase step)
    (other : Actor) : (marks step.shown).foldl (Event.entersSince other) true = true := by
  cases move with
  | fails | captures | answers | handled => rw [marks_logged]; rfl
  | _ => rfl

theorem enteredSince_append {more : List Event}
    (keeps : more.foldl (Event.entersSince actor) true = true)
    (since : enteredSince actor past = true) : enteredSince actor (past ++ more) = true := by
  unfold enteredSince at since ⊢
  rw [List.foldl_append, since, keeps]

theorem Fits.move {step : CycleStep} (fits : Fits past monitor actor phase)
    (move : CycleMove monitor actor phase step) (whole : Move monitor after step.shown)
    (located : phase = .entered → Matches monitor monitor.directory)
    (directory : after.directory = monitor.directory)
    (baseline : after.baseline = step.publishes.or monitor.baseline) :
    Fits (past ++ marks step.shown) after actor step.phase := by
  have fresh (path : Path) (fresh : Fresh past monitor actor path) :
      Fresh (past ++ marks step.shown) after actor path :=
    ⟨fresh.1.trans directory.symm, enteredSince_append (move.entersSince actor) fresh.2⟩
  have known (path : Path) (known : FreshOrStale past monitor actor path) :
      FreshOrStale (past ++ marks step.shown) after actor path :=
    known.imp (fresh path) fun stale => stale.move whole
  cases move with
  | enters =>
      refine .inl ⟨rfl, ?_⟩
      show enteredSince actor (past ++ [.entered actor]) = true
      simp [enteredSince, Event.entersSince, List.foldl_append]
  | locates =>
      refine ⟨known _ fits, ?_⟩
      unfold Matches
      rw [baseline]
      exact located rfl
  | captures captured =>
      refine ⟨known _ fits.1, ?_, Snapshot.directory_capture captured⟩
      unfold Matches
      rw [baseline]
      exact fits.2
  | recalls before =>
      obtain ⟨begun, still, rfl⟩ := fits
      exact ⟨known _ begun, still _ before⟩
  | adopts => exact ⟨known _ fits.1, fits.2.2⟩
  | startsEmpty =>
      obtain ⟨begun, -, rfl⟩ := fits
      exact ⟨known _ begun, .refl _⟩
  | accepted current =>
      obtain ⟨begun, rfl⟩ := fits
      exact fresh _ (begun.fresh current)
  | equips | surveys | consults => exact ⟨known _ fits.1, fits.2⟩
  | answers =>
      show Compares _ _ _ (Survey.note _ _ _).comparison
      rw [comparison_note]
      exact ⟨known _ fits.1, fits.2⟩
  | decides current => exact fresh _ (fits.1.fresh current)
  | calls | handled | stores => exact fresh _ fits
  | fails | refused | drops | publishes => trivial

theorem CycleMove.outside {step : CycleStep} (move : CycleMove monitor actor phase step)
    (entered : phase ≠ .waiting) : step.phase ≠ .waiting ∧ step.phase ≠ .entered := by
  cases move with
  | enters => exact absurd rfl entered
  | _ => simp

theorem CycleMove.fair {step : CycleStep} (move : CycleMove monitor actor phase step)
    (fits : Fits past monitor actor phase) (found : monitor.baseline = standing past) :
    ∀ event ∈ marks step.shown, Fair past event := by
  intro event member
  cases move with
  | fails | captures | answers | handled => simp at member
  | locates | accepted | equips | surveys | stores => cases member
  | recalls baseline | adopts baseline | startsEmpty baseline =>
      cases List.mem_singleton.mp member
      exact baseline.symm.trans found
  | consults | publishes =>
      cases List.mem_singleton.mp member
      exact fits.2
  | enters | refused | decides | drops | calls =>
      cases List.mem_singleton.mp member
      trivial

/-- The baseline is of the directory, and cycles know of no other, but for those that will not
publish. In the middle of a change of the directory the baseline may be of the old one still. -/
structure Apart (past : List Event) (monitor : Monitor) : Prop where
  baseline : Matches monitor monitor.directory ∨
    (∃ target, monitor.control = .redirected target) ∧
      ∀ actor phase, monitor.cycleOf actor = some phase → phase ≠ .waiting ∧ phase ≠ .entered
  uncommitted : ∀ target, monitor.control = .redirected target →
    ∀ actor phase, monitor.cycleOf actor = some phase → phase.isCommitted = false
  fits : ∀ actor phase, monitor.cycleOf actor = some phase → Fits past monitor actor phase

structure Belonging (past : List Event) (monitor : Monitor) : Prop where
  exclusive : monitor.Exclusive
  coherent : Coherent monitor
  fair : Always Fair past
  standing : monitor.baseline = standing past
  apart : Apart past monitor

theorem Move.redirect_cases (move : Move monitor after shown) :
    (∀ target, after.control = .redirected target ↔ monitor.control = .redirected target) ∨
      (∃ target, monitor.control = .redirectable target ∧ shown = [] ∧
        after = { monitor with
          directory := monitor.absolute target, control := .redirected target }) ∨
      ∃ target, monitor.control = .redirected target ∧
        shown = [.returned (.setDirectory target) (.ok 0)] ∧
        after = { monitor with baseline := none, control := .free } := by
  cases move with
  | @cycles actor phase step here =>
      left
      intro target
      rw [publish_eq]
      cases actor with
      | poller => rfl
      | caller =>
          simp [setCycle, scanning_of_cycleOf here]
  | turns | edits => exact .inl fun target => Iff.rfl
  | scanned control => exact .inl fun target => by simp [control]
  | acts move =>
      cases move with
      | redirected control => exact .inr (.inl ⟨_, control, rfl, rfl⟩)
      | rebased control => exact .inr (.inr ⟨_, control, rfl, rfl⟩)
      | refused => exact .inl fun target => Iff.rfl
      | startCalled control | stopCalled control | redirectCalled control | scanCalled control
      | startUnusable control | startChecked control | numbered control | spawned control
      | startRefused control | startMoved control | started control | slotEmpty control
      | slotTaken control | outdated control | closed control | joined control | gaveUp control
      | stopRefused control | stopped control | redirectUnusable control
      | redirectChecked control => exact .inl fun target => by simp [control]

theorem always_append_marks (passage : Passage monitor after shown) (fair : Always Fair past)
    (now : ∀ event ∈ marks shown, Fair past event) : Always Fair (past ++ marks shown) := by
  refine fair.append ?_
  rcases passage.mark with none | ⟨event, one⟩
  · rw [none]
    exact .nil _
  · rw [one]
    exact always_singleton.mpr (by simpa using now event (by simp [one]))

theorem Belonging.redirect {target : Path} (belonging : Belonging past monitor)
    (move : Move monitor { monitor with
      directory := monitor.absolute target, control := .redirected target } [])
    (control : monitor.control = .redirectable target)
    (calm : Calm monitor (monitor.absolute target)) :
    Belonging past { monitor with
      directory := monitor.absolute target, control := .redirected target } := by
  have there (actor : Actor) : { monitor with
      directory := monitor.absolute target
      control := .redirected target }.cycleOf actor = monitor.cycleOf actor := by
    cases actor with
    | poller => rfl
    | caller => simp [cycleOf, control, Control.cycle?]
  have stale {actor : Actor} {phase : CyclePhase} (here : monitor.cycleOf actor = some phase) :=
    (belonging.coherent.stale_of_redirect (by simp [control, Control.isRedirect]) here).move move
  refine ⟨belonging.exclusive.passage move.passage, belonging.coherent.move move, belonging.fair,
    belonging.standing, ?_, ?_, ?_⟩
  · rcases calm.settled with still | outside
    · exact .inl still
    · exact .inr ⟨⟨target, rfl⟩, fun actor phase here => outside actor phase (there actor ▸ here)⟩
  · exact fun _ _ actor phase here => calm.uncommitted actor phase (there actor ▸ here)
  · intro actor phase here
    rw [there] at here
    refine (belonging.apart.fits actor phase here).mono (fun _ _ => .inr (stale here))
      (fun _ _ => .inr (stale here)) (fun committed => ?_) (fun _ => id)
    simp [calm.uncommitted actor phase here] at committed

theorem Belonging.rebase {target : Path} (belonging : Belonging past monitor)
    (move : Move monitor { monitor with baseline := none, control := .free }
      [.returned (.setDirectory target) (.ok 0)])
    (control : monitor.control = .redirected target) :
    Belonging (past ++ [.returned (.setDirectory target) (.ok 0)])
      { monitor with baseline := none, control := .free } := by
  have there (actor : Actor) :
      { monitor with baseline := none, control := .free }.cycleOf actor = monitor.cycleOf actor := by
    cases actor with
    | poller => rfl
    | caller => simp [cycleOf, control, Control.cycle?]
  have stale {actor : Actor} {phase : CyclePhase} (here : monitor.cycleOf actor = some phase) :=
    (belonging.coherent.stale_of_redirect (by simp [control, Control.isRedirect]) here).move move
  have nothing (directory : Path) :
      Matches { monitor with baseline := none, control := .free } directory := by
    intro before found
    simp at found
  refine ⟨belonging.exclusive.passage move.passage, belonging.coherent.move move, ?_, ?_,
    .inl (nothing _), by simp, ?_⟩
  · exact belonging.fair.append (always_singleton.mpr trivial)
  · exact standing_append move.passage belonging.standing
  · intro actor phase here
    rw [there] at here
    refine (belonging.apart.fits actor phase here).mono (fun _ _ => .inr (stale here))
      (fun _ _ => .inr (stale here)) (fun committed => ?_) (fun directory _ => nothing directory)
    simp [belonging.apart.uncommitted target control actor phase here] at committed

/-- No cycle goes on, and at most one begins. -/
theorem Belonging.around (belonging : Belonging past monitor) (move : Move monitor after shown)
    (same : ∀ target, after.control = .redirected target ↔ monitor.control = .redirected target)
    (baseline : after.baseline = monitor.baseline) (directory : after.directory = monitor.directory)
    (since : ∀ actor, (marks shown).foldl (Event.entersSince actor) true = true)
    (before : ∀ actor phase, after.cycleOf actor = some phase →
      monitor.cycleOf actor = some phase ∨ phase = .waiting ∧ monitor.MayBegin actor) :
    Apart (past ++ marks shown) after := by
  have still (path : Path) (matching : Matches monitor path) : Matches after path := by
    unfold Matches
    rw [baseline]
    exact matching
  have fresh (actor : Actor) (path : Path) (fresh : Fresh past monitor actor path) :
      Fresh (past ++ marks shown) after actor path :=
    ⟨fresh.1.trans directory.symm, enteredSince_append (since actor) fresh.2⟩
  have known (actor : Actor) (path : Path) (known : FreshOrStale past monitor actor path) :
      FreshOrStale (past ++ marks shown) after actor path :=
    known.imp (fresh actor path) fun stale => stale.move move
  refine ⟨?_, fun target control actor phase here => ?_, fun actor phase here => ?_⟩
  · rcases belonging.apart.baseline with matching | ⟨⟨target, control⟩, outside⟩
    · exact .inl (directory ▸ still _ matching)
    · refine .inr ⟨⟨target, (same target).mpr control⟩, fun actor phase here => ?_⟩
      rcases before actor phase here with was | ⟨-, may⟩
      · exact outside actor phase was
      · exact absurd may (belonging.coherent.mayNotBegin_of_redirect
          (by simp [control, Control.isRedirect]))
  · rcases before actor phase here with was | ⟨rfl, -⟩
    · exact belonging.apart.uncommitted target ((same target).mp control) actor phase was
    · rfl
  · rcases before actor phase here with was | ⟨rfl, -⟩
    · exact (belonging.apart.fits actor phase was).mono (known actor)
        (fun _ begun => directory ▸ known actor _ begun) (fun _ => fresh actor) still
    · trivial

theorem Belonging.cycle {step : CycleStep} (belonging : Belonging past monitor)
    (move : Move monitor after step.shown)
    (same : ∀ target, after.control = .redirected target ↔ monitor.control = .redirected target)
    (here : monitor.cycleOf actor = some phase) (cycle : CycleMove monitor actor phase step)
    (there : ∀ other, after.cycleOf other =
      if other = actor then some step.phase else monitor.cycleOf other)
    (baseline : after.baseline = step.publishes.or monitor.baseline)
    (directory : after.directory = monitor.directory) :
    Apart (past ++ marks step.shown) after := by
  have inCycle : after.cycleOf actor = some step.phase := by rw [there, if_pos rfl]
  have fits := belonging.apart.fits actor phase here
  have inside := cycle.outside
  refine ⟨?_, fun target control other otherPhase otherHere => ?_,
    fun other otherPhase otherHere => ?_⟩
  · cases cycle with
    | publishes =>
        left
        intro before published
        -- Its check was passed since the directory last changed, so what it captured is of that.
        cases baseline.symm.trans published
        rw [directory, ← fits.1]
        exact .refl _
    | _ =>
        rcases belonging.apart.baseline with matching | ⟨⟨target, control⟩, outside⟩
        · left
          unfold Matches
          rw [baseline, directory]
          exact matching
        · have outsideStill := inside (outside actor _ here).1
          refine .inr ⟨⟨target, (same target).mpr control⟩, fun other otherPhase otherHere => ?_⟩
          rw [there] at otherHere
          split at otherHere
          · cases otherHere
            exact outsideStill
          · exact outside other otherPhase otherHere
  · have control := (same target).mp control
    have early := belonging.apart.uncommitted target control
    rw [there] at otherHere
    split at otherHere
    · cases otherHere
      have stale := belonging.coherent.stale_of_redirect (by simp [control, Control.isRedirect]) here
      exact (cycle.silent stale.notCurrent (early actor phase here)).1
    · exact early other otherPhase otherHere
  · by_cases own : other = actor
    · subst own
      cases inCycle.symm.trans otherHere
      refine fits.move cycle move (fun entered => ?_) directory baseline
      rcases belonging.apart.baseline with matching | ⟨-, outside⟩
      · exact matching
      · exact absurd entered (outside other phase here).2
    -- The moving cycle is inside, so any other one waits.
    · have outside : otherPhase = .waiting := by
        cases inside : otherPhase.isInside with
        | true =>
            have both := belonging.exclusive.passage move.passage other actor
              ⟨otherPhase, otherHere, inside⟩ ⟨step.phase, inCycle, cycle.inside.2⟩
            exact absurd both own
        | false =>
            cases otherPhase with
            | waiting => rfl
            | _ => simp [CyclePhase.isInside] at inside
      subst outside
      trivial

theorem Belonging.steady (belonging : Belonging past monitor) (move : Move monitor after shown)
    (same : ∀ target, after.control = .redirected target ↔ monitor.control = .redirected target) :
    Belonging (past ++ marks shown) after := by
  have passage := move.passage
  have exclusive := belonging.exclusive.passage passage
  have coherent := belonging.coherent.move move
  have standing := standing_append passage belonging.standing
  suffices rest : (∀ event ∈ marks shown, Fair past event) ∧ Apart (past ++ marks shown) after from
    ⟨exclusive, coherent, always_append_marks passage belonging.fair rest.1, standing, rest.2⟩
  cases passage with
  | @cycles actor phase step here cycle there baseline directory =>
      exact ⟨cycle.fair (belonging.apart.fits actor phase here) belonging.standing,
        belonging.cycle move same here cycle there baseline directory⟩
  | @begins actor may here there baseline directory =>
      refine ⟨by simp [marks], belonging.around move same baseline directory (fun _ => rfl) ?_⟩
      intro other phase otherHere
      rw [there] at otherHere
      split at otherHere
      · rename_i own
        cases otherHere
        exact .inr ⟨rfl, own ▸ may⟩
      · exact .inl otherHere
  | @ends actor result rest here there quiet baseline directory =>
      have marked : marks (.left actor result :: rest) = [.left actor result] := by
        show .left actor result :: marks rest = _
        rw [quiet]
      refine ⟨?_, belonging.around move same baseline directory (fun _ => by rw [marked]; rfl) ?_⟩
      · rw [marked]
        intro event member
        cases List.mem_singleton.mp member
        trivial
      · intro other phase otherHere
        rw [there] at otherHere
        split at otherHere
        · simp at otherHere
        · exact .inl otherHere
  | rests there quiet baseline directory =>
      exact ⟨by simp [quiet], belonging.around move same baseline directory
        (fun _ => by rw [quiet]; rfl) fun other phase otherHere => .inl (there other ▸ otherHere)⟩
  | redirects control _ _ _ next => simp [(same _).mp next] at control
  | rebases control _ _ _ next =>
      have stays := (same _).mpr control
      simp [next] at stays

def CalmStep (monitor : Monitor) (action : Action) : Prop :=
  ∀ after shown target, monitor.step action = some (after, shown) →
    monitor.control = .redirectable target → after.control = .redirected target →
      Calm monitor (monitor.absolute target)

theorem Belonging.step {action : Action} (belonging : Belonging past monitor)
    (calm : CalmStep monitor action) (taken : monitor.step action = some (after, shown)) :
    Belonging (past ++ marks shown) after := by
  have move := step_move taken
  rcases move.redirect_cases with same | ⟨target, control, rfl, rfl⟩ | ⟨target, control, rfl, rfl⟩
  · exact belonging.steady move same
  · simpa [marks] using belonging.redirect move control (calm _ _ target taken control rfl)
  · exact belonging.rebase move control

theorem Belonging.run {view : DirectoryView} {workingDirectory path : Path}
    {settings : PollSettings} {fresh last : Monitor}
    (created : create view workingDirectory path settings = .ok fresh)
    (run : RunOf CalmStep fresh shown last) : Belonging (marks shown) last := by
  have nobody := cycleOf_create created
  have nothing : fresh.baseline = none := by rw [create_eq created]
  have begins : Run fresh [] fresh := .rest fresh
  refine run.traced ⟨Exclusive.run created begins, Coherent.run created begins, .nil _, nothing,
    .inl ?_, ?_, ?_⟩ fun calm belonging taken => belonging.step calm taken
  · intro before found
    simp [nothing] at found
  · simp [nobody]
  · simp [nobody]

/-- Outside a change of the directory the baseline is of it, and nothing crossed such a change. -/
def Belongs (shown : List Event) (monitor : Monitor) : Prop :=
  (monitor.control.isRedirect = false → Matches monitor monitor.directory) ∧
    Always Fair (marks shown)

theorem Belonging.belongs (belonging : Belonging (marks shown) monitor) : Belongs shown monitor := by
  refine ⟨fun outside => ?_, belonging.fair⟩
  rcases belonging.apart.baseline with matching | ⟨⟨target, control⟩, -⟩
  · exact matching
  · simp [control, Control.isRedirect] at outside

end FolderWatch.Monitor
