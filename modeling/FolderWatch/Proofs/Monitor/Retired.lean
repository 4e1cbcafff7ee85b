import FolderWatch.Proofs.Monitor.Traces

/-!
Which pollers may still publish. Every poller but one is told to stop and of a past generation; the
one is in the slot, or the caller has it in hand. While the monitor is stopped there is none.
-/

namespace FolderWatch.Monitor

def badge (poller : Poller) : Nat × Bool := (poller.generation, poller.closed)

def badgeOf (monitor : Monitor) (index : Nat) : Option (Nat × Bool) :=
  monitor.pollers[index]?.map badge

/-- The one poller that may be neither told to stop nor of a past generation. -/
def Control.charge (slot : Option Nat) : Control → Option Nat
  | spawned poller | started poller | taken poller | outdated poller => some poller
  | _ => slot

/-- Where the caller is says whether the monitor runs and whether its slot is taken. -/
def Control.Agrees (running : Bool) (slot : Option Nat) : Control → Prop
  | free => running = slot.isSome
  | stopping => running = true ∧ slot.isSome = true
  | started _ | taken _ | outdated _ | joining _ | parted => running = true ∧ slot = none
  | _ => running = false ∧ slot = none

structure Coherent (monitor : Monitor) : Prop where
  machine : monitor.lifecycle = { Lifecycle.initial with
    state := if monitor.isRunning then .running else .stopped }
  agrees : monitor.control.Agrees monitor.isRunning monitor.slot
  bounded : ∀ index generation closed, monitor.badgeOf index = some (generation, closed) →
    generation ≤ monitor.generation
  numbered : ∀ generation, monitor.control = .numbered generation →
    generation ≤ monitor.generation
  outdated : ∀ index generation closed, monitor.control = .outdated index →
    monitor.badgeOf index = some (generation, closed) → generation < monitor.generation
  retired : ∀ index generation closed, monitor.badgeOf index = some (generation, closed) →
    monitor.control.charge monitor.slot ≠ some index →
      closed = true ∧ generation < monitor.generation

variable {monitor after : Monitor} {shown : List Event}

theorem Coherent.start_moves {poller : Nat} (coherent : Coherent monitor)
    (control : monitor.control = .spawned poller) :
    monitor.lifecycle.move? .start = some { Lifecycle.initial with state := .running } := by
  have agrees := coherent.agrees
  simp only [control, Control.Agrees] at agrees
  exact Lifecycle.move?_start coherent.machine agrees.1

theorem Coherent.stop_moves (coherent : Coherent monitor) (control : monitor.control = .parted) :
    monitor.lifecycle.move? .stop = some .initial := by
  have agrees := coherent.agrees
  simp only [control, Control.Agrees] at agrees
  exact Lifecycle.move?_stop coherent.machine agrees.1

/-- A step that leaves pollers and generation alone needs to say how the rest goes together. -/
theorem Coherent.next (coherent : Coherent monitor)
    (badges : ∀ index, after.badgeOf index = monitor.badgeOf index)
    (generation : after.generation = monitor.generation)
    (machine : after.lifecycle = { Lifecycle.initial with
      state := if after.isRunning then .running else .stopped })
    (agrees : after.control.Agrees after.isRunning after.slot)
    (numbered : ∀ generation, after.control = .numbered generation →
      monitor.control = .numbered generation)
    (outdated : ∀ index, after.control = .outdated index → monitor.control = .outdated index)
    (charge : after.control.charge after.slot = monitor.control.charge monitor.slot) :
    Coherent after := by
  refine ⟨machine, agrees, ?_, ?_, ?_, ?_⟩
  · intro index generation closed here
    rw [badges] at here
    simpa [*] using coherent.bounded index generation closed here
  · intro given control
    have := coherent.numbered given (numbered given control)
    omega
  · intro index given closed control here
    rw [badges] at here
    have := coherent.outdated index given closed (outdated index control) here
    omega
  · intro index given closed here other
    rw [badges] at here
    rw [charge] at other
    have := coherent.retired index given closed here other
    exact ⟨this.1, by omega⟩

theorem Coherent.turn (coherent : Coherent monitor) {control : Control}
    (agrees : control.Agrees monitor.isRunning monitor.slot)
    (numbered : ∀ generation, control ≠ .numbered generation)
    (outdated : ∀ index, control ≠ .outdated index)
    (charge : control.charge monitor.slot = monitor.control.charge monitor.slot) :
    Coherent { monitor with control } :=
  coherent.next (fun _ => rfl) rfl coherent.machine agrees
    (fun generation same => absurd same (numbered generation))
    (fun index same => absurd same (outdated index)) charge

theorem badge_append (pollers : List Poller) (fresh : Poller) (index : Nat) :
    (pollers ++ [fresh])[index]?.map badge =
      if index = pollers.length then some (badge fresh) else pollers[index]?.map badge := by
  rw [Trace.getElem?_append_one]
  split <;> rfl

theorem badge_close (pollers : List Poller) (leaver index : Nat) :
    (pollers.modify leaver fun poller => { poller with closed := true })[index]?.map badge =
      (pollers[index]?.map badge).map fun (generation, closed) =>
        (generation, closed || leaver = index) := by
  rw [List.getElem?_modify]
  by_cases same : leaver = index
  · cases pollers[index]? <;> simp [same, badge]
  · cases pollers[index]? <;> simp [same, badge]

theorem badgeOf_setCycle (monitor : Monitor) (actor : Actor) (phase : CyclePhase) (index : Nat) :
    (monitor.setCycle actor phase).badgeOf index = monitor.badgeOf index := by
  cases actor with
  | caller => rfl
  | poller cycling =>
      simp only [badgeOf, setCycle, List.getElem?_modify]
      by_cases same : cycling = index
      · cases monitor.pollers[index]? <;> simp [same, badge]
      · cases monitor.pollers[index]? <;> simp [same]

theorem badgeOf_setPoller {monitor : Monitor} {turning : Nat} {poller : Poller}
    (here : monitor.pollers[turning]? = some poller) (phase : PollerPhase) (index : Nat) :
    (monitor.setPoller turning { poller with phase }).badgeOf index = monitor.badgeOf index := by
  simp only [badgeOf, setPoller, List.getElem?_set]
  by_cases same : turning = index
  · subst same
    obtain ⟨below, found⟩ := List.getElem?_eq_some_iff.mp here
    simp [below, found, badge]
  · simp [same]

theorem Move.badge {index generation : Nat} {closed : Bool} (move : Move monitor after shown)
    (here : monitor.badgeOf index = some (generation, closed)) :
    monitor.generation ≤ after.generation ∧
      ∃ told, after.badgeOf index = some (generation, told) ∧ (closed = true → told = true) := by
  cases move with
  | @cycles actor phase step _ _ =>
      rw [publish_eq, badgeOf_setCycle]
      exact ⟨by cases actor <;> exact Nat.le_refl _, closed, here, id⟩
  | turns found =>
      rw [badgeOf_setPoller found]
      exact ⟨Nat.le_refl _, closed, here, id⟩
  | scanned | edits => exact ⟨Nat.le_refl _, closed, here, id⟩
  | acts move =>
      cases move with
      | numbered | outdated => exact ⟨Nat.le_succ _, closed, here, id⟩
      | spawned =>
          refine ⟨Nat.le_refl _, closed, ?_, id⟩
          have below : index ≠ monitor.pollers.length := by
            rintro rfl
            simp [badgeOf] at here
          simpa only [badgeOf, badge_append, if_neg below] using here
      | closed =>
          refine ⟨Nat.le_refl _, ?_⟩
          simp only [badgeOf] at here
          simp +contextual [badgeOf, badge_close, here]
      | _ => exact ⟨Nat.le_refl _, closed, here, id⟩

/-- With the next generation every poller there is belongs to a past one. -/
theorem Coherent.advance (coherent : Coherent monitor) {control : Control}
    (agrees : control.Agrees monitor.isRunning monitor.slot)
    (numbered : ∀ generation, control = .numbered generation →
      generation ≤ monitor.generation + 1)
    (charge : control.charge monitor.slot = monitor.control.charge monitor.slot) :
    Coherent { monitor with generation := monitor.generation + 1, control } := by
  refine ⟨coherent.machine, agrees, ?_, numbered, ?_, ?_⟩
  · intro index generation closed here
    exact Nat.le_succ_of_le (coherent.bounded index generation closed here)
  · intro index generation closed _ here
    exact Nat.lt_succ_of_le (coherent.bounded index generation closed here)
  · intro index generation closed here other
    have past := coherent.retired index generation closed here (by rwa [← charge])
    exact ⟨past.1, Nat.lt_succ_of_lt past.2⟩

/-- The new poller is in hand, and its generation is the number drawn for it. -/
theorem Coherent.spawn {fresh : Nat} (coherent : Coherent monitor)
    (control : monitor.control = .numbered fresh) :
    Coherent { monitor with
      pollers := monitor.pollers ++ [{ generation := fresh }]
      control := .spawned monitor.pollers.length } := by
  have agrees := coherent.agrees
  simp only [control, Control.Agrees] at agrees
  refine ⟨coherent.machine, agrees, ?_, by simp, by simp, ?_⟩
  · intro index generation closed here
    simp only [badgeOf, badge_append] at here
    split at here
    · cases here
      exact coherent.numbered fresh control
    · exact coherent.bounded index generation closed here
  · intro index generation closed here other
    have different : index ≠ monitor.pollers.length := by
      rintro rfl
      exact other rfl
    simp only [badgeOf, badge_append, if_neg different] at here
    exact coherent.retired index generation closed here
      (by simp [control, Control.charge, agrees.2])

/-- The poller told to stop is no longer in hand; its generation is past already. -/
theorem Coherent.close {leaver : Nat} (coherent : Coherent monitor)
    (control : monitor.control = .outdated leaver) :
    Coherent { monitor with
      pollers := monitor.pollers.modify leaver fun poller => { poller with closed := true }
      control := .joining leaver } := by
  have agrees := coherent.agrees
  simp only [control, Control.Agrees] at agrees
  have before {index generation : Nat} {closed : Bool}
      (here : (monitor.pollers.modify leaver fun poller =>
        { poller with closed := true })[index]?.map badge = some (generation, closed)) :
      ∃ told, monitor.badgeOf index = some (generation, told) ∧
        (told || leaver = index) = closed := by
    simp only [badge_close, Option.map_eq_some_iff, Prod.mk.injEq] at here
    obtain ⟨⟨given, told⟩, was, rfl, same⟩ := here
    exact ⟨told, by simpa [badgeOf] using was, same⟩
  refine ⟨coherent.machine, agrees, ?_, by simp, by simp, ?_⟩
  · intro index generation closed here
    obtain ⟨told, badged, -⟩ := before here
    exact coherent.bounded index generation told badged
  · intro index generation closed here _
    obtain ⟨told, badged, rfl⟩ := before here
    by_cases same : leaver = index
    · subst same
      exact ⟨by simp, coherent.outdated leaver generation told control badged⟩
    · have past := coherent.retired index generation told badged
        (by simpa [control, Control.charge] using same)
      exact ⟨by simp [past.1], past.2⟩

theorem Coherent.callerMove (coherent : Coherent monitor)
    (move : CallerMove monitor after shown) : Coherent after := by
  have agrees := coherent.agrees
  cases move with
  | refused => exact coherent
  | startCalled control can =>
      have stopped : monitor.isRunning = false :=
        (Lifecycle.can_start_iff coherent.machine).mp can
      simp only [control, Control.Agrees, stopped] at agrees
      have empty : monitor.slot = none := by simpa using agrees.symm
      exact coherent.turn ⟨stopped, empty⟩ (by simp) (by simp) (by simp [control, Control.charge])
  | stopCalled control runs =>
      have running : monitor.isRunning = true := by
        rcases runs with can | running
        · exact (Lifecycle.can_stop_iff coherent.machine).mp can
        · exact running
      simp only [control, Control.Agrees, running] at agrees
      exact coherent.turn ⟨running, agrees.symm⟩ (by simp) (by simp)
        (by simp [control, Control.charge])
  | redirectCalled control stopped | scanCalled control stopped =>
      simp only [control, Control.Agrees, stopped] at agrees
      have empty : monitor.slot = none := by simpa using agrees.symm
      exact coherent.turn ⟨stopped, empty⟩ (by simp) (by simp) (by simp [control, Control.charge])
  | startUnusable control | redirectUnusable control =>
      simp only [control, Control.Agrees] at agrees
      exact coherent.turn (by simp [Control.Agrees, agrees]) (by simp) (by simp)
        (by simp [control, Control.charge])
  | startChecked control | redirectChecked control | gaveUp control | joined control =>
      simp only [control, Control.Agrees] at agrees
      exact coherent.turn agrees (by simp) (by simp) (by simp [control, Control.charge])
  | numbered control =>
      simp only [control, Control.Agrees] at agrees
      refine coherent.advance agrees ?_ (by simp [control, Control.charge])
      rintro generation same
      cases same
      exact Nat.le_refl _
  | spawned control => exact coherent.spawn control
  | startRefused control stuck => simp [coherent.start_moves control] at stuck
  | startMoved control moved =>
      simp only [control, Control.Agrees] at agrees
      cases (coherent.start_moves control).symm.trans moved
      exact coherent.next (fun _ => rfl) rfl rfl ⟨rfl, agrees.2⟩ (by simp) (by simp)
        (by simp [control, Control.charge])
  | started control =>
      simp only [control, Control.Agrees] at agrees
      exact coherent.next (fun _ => rfl) rfl coherent.machine agrees.1 (by simp) (by simp)
        (by simp [control, Control.charge])
  | slotEmpty control slot =>
      simp [control, Control.Agrees, slot] at agrees
  | slotTaken control slot =>
      simp only [control, Control.Agrees] at agrees
      exact coherent.next (fun _ => rfl) rfl coherent.machine ⟨agrees.1, rfl⟩ (by simp) (by simp)
        (by simp [control, Control.charge, slot])
  | outdated control =>
      simp only [control, Control.Agrees] at agrees
      exact coherent.advance agrees (by simp) (by simp [control, Control.charge])
  | closed control => exact coherent.close control
  | stopRefused control stuck => simp [coherent.stop_moves control] at stuck
  | stopped control moved =>
      simp only [control, Control.Agrees] at agrees
      cases (coherent.stop_moves control).symm.trans moved
      have stopped : false = monitor.slot.isSome := by simp [agrees.2]
      exact coherent.next (fun _ => rfl) rfl rfl stopped (by simp) (by simp)
        (by simp [control, Control.charge])
  | redirected control =>
      simp only [control, Control.Agrees] at agrees
      exact coherent.next (fun _ => rfl) rfl coherent.machine agrees (by simp) (by simp)
        (by simp [control, Control.charge])
  | rebased control =>
      simp only [control, Control.Agrees] at agrees
      have stopped : monitor.isRunning = monitor.slot.isSome := by simp [agrees]
      exact coherent.next (fun _ => rfl) rfl coherent.machine stopped (by simp) (by simp)
        (by simp [control, Control.charge])

theorem Coherent.move (coherent : Coherent monitor) (move : Move monitor after shown) :
    Coherent after := by
  cases move with
  | @cycles actor phase step here move =>
      rw [publish_eq]
      cases actor with
      | caller =>
          have scanning := scanning_of_cycleOf here
          have agrees := coherent.agrees
          simp only [scanning, Control.Agrees] at agrees
          exact coherent.next (fun _ => rfl) rfl coherent.machine agrees (by simp [setCycle])
            (by simp [setCycle]) (by simp [setCycle, scanning, Control.charge])
      | poller index =>
          exact coherent.next (badgeOf_setCycle _ (.poller index) _) rfl coherent.machine
            coherent.agrees (fun _ => id) (fun _ => id) rfl
  | turns here =>
      exact coherent.next (badgeOf_setPoller here _) rfl coherent.machine coherent.agrees
        (fun _ => id) (fun _ => id) rfl
  | scanned control =>
      have agrees := coherent.agrees
      simp only [control, Control.Agrees] at agrees
      exact coherent.turn (by simp [Control.Agrees, agrees]) (by simp) (by simp)
        (by simp [control, Control.charge])
  | acts move => exact coherent.callerMove move
  | edits =>
      exact coherent.next (fun _ => rfl) rfl coherent.machine coherent.agrees
        (fun _ => id) (fun _ => id) rfl

theorem Coherent.run {view : DirectoryView} {workingDirectory path : Path}
    {settings : PollSettings} {fresh last : Monitor} {allowed : Monitor → Action → Prop}
    (created : create view workingDirectory path settings = .ok fresh)
    (run : RunOf allowed fresh shown last) : Coherent last := by
  refine run.invariant ?_ fun _ coherent taken => coherent.move (step_move taken)
  rw [create_eq created]
  refine ⟨rfl, rfl, ?_, ?_, ?_, ?_⟩ <;> simp [badgeOf]

/-- A poller told to stop and of a past generation, which may not publish any more. -/
def Stale (monitor : Monitor) : Actor → Prop
  | .caller => False
  | .poller index => ∃ generation,
      monitor.badgeOf index = some (generation, true) ∧ generation < monitor.generation

theorem Stale.notCurrent {actor : Actor} (stale : Stale monitor actor) :
    monitor.isCurrent actor = false := by
  cases actor with
  | caller => exact stale.elim
  | poller index =>
      obtain ⟨generation, here, past⟩ := stale
      simp only [badgeOf, badge, Option.map_eq_some_iff, Prod.mk.injEq] at here
      obtain ⟨poller, found, rfl, -⟩ := here
      simp only [isCurrent, generationOf, found, Option.map_some, Option.all_some,
        decide_eq_false_iff_not]
      omega

theorem Stale.mayNotBegin {actor : Actor} (stale : Stale monitor actor) :
    ¬monitor.MayBegin actor := by
  cases actor with
  | caller => exact stale.elim
  | poller index =>
      obtain ⟨generation, here, -⟩ := stale
      rintro ⟨poller, found, untold⟩
      simp [badgeOf, badge, found, untold] at here

theorem Stale.move {actor : Actor} (stale : Stale monitor actor) (move : Move monitor after shown) :
    Stale after actor := by
  cases actor with
  | caller => exact stale
  | poller index =>
      obtain ⟨generation, here, past⟩ := stale
      obtain ⟨later, told, badged, stays⟩ := move.badge here
      cases stays rfl
      exact ⟨generation, badged, by omega⟩

theorem Coherent.stale {index : Nat} (coherent : Coherent monitor)
    (nobody : monitor.control.charge monitor.slot = none) (started : index < monitor.pollers.length) :
    Stale monitor (.poller index) := by
  have badged : monitor.badgeOf index = some (badge monitor.pollers[index]) := by
    simp [badgeOf, started]
  obtain ⟨told, past⟩ := coherent.retired index _ _ badged (by simp [nobody])
  exact ⟨_, told ▸ badged, past⟩

theorem Coherent.charge_of_redirect (coherent : Coherent monitor)
    (redirect : monitor.control.isRedirect = true) :
    monitor.control.charge monitor.slot = none := by
  have agrees := coherent.agrees
  cases control : monitor.control with
  | redirecting | redirectable | redirected =>
      simp only [control, Control.Agrees] at agrees
      exact agrees.2
  | _ => simp [control, Control.isRedirect] at redirect

theorem Coherent.stale_of_redirect {actor : Actor} {phase : CyclePhase}
    (coherent : Coherent monitor) (redirect : monitor.control.isRedirect = true)
    (here : monitor.cycleOf actor = some phase) : Stale monitor actor := by
  cases actor with
  | caller =>
      simp [scanning_of_cycleOf here, Control.isRedirect] at redirect
  | poller index =>
      obtain ⟨poller, found, -⟩ := cycling_of_cycleOf here
      obtain ⟨started, -⟩ := List.getElem?_eq_some_iff.mp found
      exact coherent.stale (coherent.charge_of_redirect redirect) started

theorem Coherent.mayNotBegin_of_redirect {actor : Actor} (coherent : Coherent monitor)
    (redirect : monitor.control.isRedirect = true) : ¬monitor.MayBegin actor := by
  intro may
  cases actor with
  | caller =>
      have free : monitor.control = .free := may
      simp [free, Control.isRedirect] at redirect
  | poller index =>
      obtain ⟨poller, found, untold⟩ := may
      obtain ⟨started, -⟩ := List.getElem?_eq_some_iff.mp found
      exact (coherent.stale (coherent.charge_of_redirect redirect) started).mayNotBegin
        ⟨poller, found, untold⟩

end FolderWatch.Monitor
