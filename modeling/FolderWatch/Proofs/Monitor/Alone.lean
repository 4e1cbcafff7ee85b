import FolderWatch.Proofs.Monitor.Retired

/-!
While no stop gives up on its poller, every poller is gone but the one that the caller has in hand
or in its slot. Once the monitor is stopped, none is left.
-/

namespace FolderWatch.Monitor

variable {monitor after : Monitor} {shown : List Event}

/-- The one poller that need not be gone. -/
def Control.keeper (slot : Option Nat) : Control → Option Nat
  | spawned poller | started poller | taken poller | outdated poller | joining poller =>
      some poller
  | _ => slot

def Alone (monitor : Monitor) : Prop :=
  ∀ index poller, monitor.pollers[index]? = some poller →
    monitor.control.keeper monitor.slot ≠ some index → poller.phase = .exited

def IsGone (monitor : Monitor) (index : Nat) : Prop :=
  ∃ poller, monitor.pollers[index]? = some poller ∧ poller.phase = .exited

theorem Alone.kept (alone : monitor.Alone) (pollers : after.pollers = monitor.pollers)
    (keeper : after.control.keeper after.slot = monitor.control.keeper monitor.slot) :
    after.Alone := by
  intro index poller here different
  rw [pollers] at here
  rw [keeper] at different
  exact alone index poller here different

/-- A poller that takes a step was not gone, so it is the one that need not be. -/
theorem Alone.moved {phase : PollerPhase} {moving : Nat} {poller : Poller} (alone : monitor.Alone)
    (here : monitor.pollers[moving]? = some poller) (alive : poller.phase ≠ .exited)
    (pollers : after.pollers = monitor.pollers.set moving { poller with phase })
    (keeper : after.control.keeper after.slot = monitor.control.keeper monitor.slot) :
    after.Alone := by
  intro index other found different
  rw [keeper] at different
  have elsewhere : moving ≠ index := by
    rintro rfl
    exact alive (alone moving poller here different)
  rw [pollers, List.getElem?_set_ne elsewhere] at found
  exact alone index other found different

theorem Alone.callerMove (alone : monitor.Alone) (coherent : Coherent monitor)
    (move : CallerMove monitor after shown)
    (waits : ∀ index, monitor.control = .joining index → after.control ≠ monitor.control →
      monitor.IsGone index) : after.Alone := by
  have agrees := coherent.agrees
  cases move with
  | refused => exact alone
  | startRefused control stuck => simp [coherent.start_moves control] at stuck
  | spawned control =>
      simp only [control, Control.Agrees] at agrees
      intro index poller here different
      have old : index ≠ monitor.pollers.length := by
        rintro rfl
        exact different rfl
      rw [Trace.getElem?_append_one, if_neg old] at here
      exact alone index poller here (by simp [control, agrees.2, Control.keeper])
  | @closed leaver control =>
      intro index poller here different
      rw [List.getElem?_modify] at here
      have other : leaver ≠ index := by
        rintro rfl
        exact different rfl
      cases was : monitor.pollers[index]? with
      | none => simp [was] at here
      | some before =>
          have same : before = poller := by simpa [was, other] using here
          subst poller
          exact alone index before was (by simpa [control, Control.keeper] using other)
  | @joined joined _ control | @gaveUp joined control =>
      obtain ⟨gone, found, exited⟩ := waits joined control (by simp [control])
      intro index poller here different
      by_cases same : joined = index
      · subst same
        cases here.symm.trans found
        exact exited
      · exact alone index poller here (by simpa [control, Control.keeper] using same)
  | slotTaken control slot => exact alone.kept rfl (by simp [control, slot, Control.keeper])
  | startCalled control | stopCalled control | redirectCalled control | scanCalled control
  | startUnusable control | startChecked control | numbered control | startMoved control
  | started control | slotEmpty control | outdated control | stopRefused control | stopped control
  | redirectUnusable control | redirectChecked control | redirected control | rebased control =>
      exact alone.kept rfl (by simp [control, Control.keeper])

theorem Alone.move (alone : monitor.Alone) (coherent : Coherent monitor)
    (move : Move monitor after shown)
    (waits : ∀ index, monitor.control = .joining index → after.control ≠ monitor.control →
      monitor.IsGone index) : after.Alone := by
  cases move with
  | @cycles actor phase step here move =>
      rw [publish_eq]
      cases actor with
      | caller =>
          have scanning := scanning_of_cycleOf here
          exact alone.kept rfl (by simp [setCycle, scanning, Control.keeper])
      | poller moving =>
          obtain ⟨poller, found, cycling⟩ := cycling_of_cycleOf here
          have alive : poller.phase ≠ .exited := by simp [cycling]
          intro index other there different
          have elsewhere : moving ≠ index := by
            rintro rfl
            exact alive (alone moving poller found different)
          have same : monitor.pollers[index]? = some other := by
            simpa [setCycle, List.getElem?_modify, elsewhere] using there
          exact alone index other same different
  | @turns moving poller phase _ here turn =>
      refine alone.moved here ?_ rfl rfl
      intro gone
      rw [gone] at turn
      cases turn with
      | heeds between => simp at between
  | scanned control => exact alone.kept rfl (by simp [control, Control.keeper])
  | edits => exact alone.kept rfl rfl
  | acts move => exact alone.callerMove coherent move waits

theorem isGone_of_joined {index : Nat} {signal : Signal}
    (control : monitor.control = .joining index) (waits : signal ≠ .leave)
    (taken : monitor.step (.go .caller signal) = some (after, shown)) :
    monitor.IsGone index := by
  simp only [step, stepControl] at taken
  split at taken
  case h_9 joining =>
    cases control.symm.trans joining
    split at taken
    · rename_i here
      exact ⟨_, here, rfl⟩
    · simp at taken
  case h_10 => exact absurd rfl waits
  all_goals simp_all

theorem Alone.step {action : Action} (alone : monitor.Alone) (coherent : Coherent monitor)
    (waits : action ≠ .go .caller .leave) (taken : monitor.step action = some (after, shown)) :
    after.Alone := by
  refine alone.move coherent (step_move taken) ?_
  intro index control moves
  cases action with
  | call operation => simp [Monitor.step, control] at taken
  | go actor signal =>
      cases actor with
      | caller =>
          refine isGone_of_joined control ?_ taken
          rintro rfl
          exact waits rfl
      | poller moving => exact absurd (pollerStep_of_step taken).control moves
  | _ =>
      cases taken
      exact absurd rfl moves

theorem Coherent.slot_of_stopped (coherent : Coherent monitor) (free : monitor.control = .free)
    (stopped : monitor.isRunning = false) : monitor.slot = none := by
  have agrees := coherent.agrees
  simp only [free, Control.Agrees, stopped] at agrees
  simpa using agrees.symm

theorem Alone.gone_of_stopped (alone : monitor.Alone) (coherent : Coherent monitor)
    (free : monitor.control = .free) (stopped : monitor.isRunning = false) {index : Nat}
    {poller : Poller} (here : monitor.pollers[index]? = some poller) : poller.phase = .exited := by
  have slot := coherent.slot_of_stopped free stopped
  exact alone index poller here (by simp [free, slot, Control.keeper])

theorem Coherent.call_stop (coherent : Coherent monitor) (free : monitor.control = .free)
    (running : monitor.isRunning = true) :
    monitor.step (.call .stop) = some ({ monitor with control := .stopping }, []) := by
  have can := (Lifecycle.can_stop_iff coherent.machine).mpr running
  simp [Monitor.step, free, begin, can]

/-- Where the caller is within a stop. -/
def Control.IsStop : Control → Prop
  | stopping | taken _ | outdated _ | joining _ | parted => True
  | _ => False

theorem Move.stops (coherent : Coherent monitor) (move : Move monitor after shown)
    (stop : monitor.control.IsStop) :
    after.control.IsStop ∨ after.control = .free ∧ after.isRunning = false := by
  cases move with
  | @cycles actor _ _ here =>
      rw [publish_eq]
      cases actor with
      | caller => simp [scanning_of_cycleOf here, Control.IsStop] at stop
      | poller => exact .inl stop
  | turns | edits => exact .inl stop
  | scanned control => simp [control, Control.IsStop] at stop
  | acts move =>
      cases move with
      | slotEmpty | slotTaken | outdated | closed | joined | gaveUp => exact .inl trivial
      | stopRefused control stuck => simp [coherent.stop_moves control] at stuck
      | stopped control moved =>
          cases (coherent.stop_moves control).symm.trans moved
          exact .inr ⟨rfl, rfl⟩
      | refused control | startCalled control | stopCalled control | redirectCalled control
      | scanCalled control | startUnusable control | startChecked control | numbered control
      | spawned control | startRefused control | startMoved control | started control
      | redirectUnusable control | redirectChecked control | redirected control
      | rebased control => simp [control, Control.IsStop] at stop

end FolderWatch.Monitor
