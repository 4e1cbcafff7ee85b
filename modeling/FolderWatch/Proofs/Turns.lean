import FolderWatch.RunState

/-!
Starts and stops that succeed take turns, a start first. Whatever is started runs a little before its
start is through.
-/

namespace FolderWatch

/-- What comes next after so many starts and stops. -/
def turnAfter (count : Nat) : RunEvent := if count % 2 = 0 then .start else .stop

def TakeTurns (turns : List RunEvent) : Prop :=
  ∀ index event, turns[index]? = some event → event = turnAfter index

/-- What the turns taken so far say of whether something runs. -/
structure Tally (turns : List RunEvent) (running starting : Bool) : Prop where
  alternate : TakeTurns turns
  parity : running = true ↔ (turns.length + starting.toNat) % 2 = 1

variable {turns : List RunEvent}

theorem TakeTurns.snoc (alternate : TakeTurns turns) :
    TakeTurns (turns ++ [turnAfter turns.length]) := by
  intro index event here
  rcases Nat.lt_trichotomy index turns.length with below | equal | above
  · rw [List.getElem?_append_left below] at here
    exact alternate index event here
  · subst equal
    simpa using here.symm
  · rw [List.getElem?_eq_none (by simp; omega)] at here
    simp at here

theorem TakeTurns.starts_le_one {past between rest : List RunEvent}
    (alternate : TakeTurns (past ++ between ++ rest)) (unstopped : .stop ∉ between) :
    between.count .start ≤ 1 := by
  refine Nat.le_trans List.count_le_length ?_
  rcases between with _ | ⟨first, _ | ⟨second, more⟩⟩
  · simp
  · simp
  · have firstTurn := alternate past.length first (by simp)
    have secondTurn := alternate (past.length + 1) second (by simp)
    simp only [turnAfter] at firstTurn secondTurn
    have stopped : first = .stop ∨ second = .stop := by
      split at firstTurn
      · exact .inr (by rw [secondTurn, if_neg (by omega)])
      · exact .inl firstTurn
    rcases stopped with rfl | rfl <;> simp at unstopped

theorem Tally.nil : Tally [] false false := ⟨by simp [TakeTurns], by simp⟩

theorem Tally.moves (tally : Tally turns false false) : Tally turns true true := by
  have even := tally.parity
  simp only [Bool.toNat_false, Nat.add_zero, Bool.false_eq_true, false_iff] at even
  exact ⟨tally.alternate, by simp; omega⟩

theorem Tally.starts (tally : Tally turns true true) : Tally (turns ++ [.start]) true false := by
  have odd : (turns.length + 1) % 2 = 1 := tally.parity.mp rfl
  have turn : turnAfter turns.length = .start := if_pos (by omega)
  exact ⟨turn ▸ tally.alternate.snoc, by simp [odd]⟩

theorem Tally.stops (tally : Tally turns true false) : Tally (turns ++ [.stop]) false false := by
  have odd : turns.length % 2 = 1 := tally.parity.mp rfl
  have turn : turnAfter turns.length = .stop := if_neg (by omega)
  exact ⟨turn ▸ tally.alternate.snoc, by simp; omega⟩

end FolderWatch
