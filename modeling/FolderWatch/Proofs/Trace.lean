/-!
A trace is a list of events, the earliest first. What a trace satisfies is said point by point, of an
event and what went before it.
-/

namespace FolderWatch.Trace

variable {ε : Type}

theorem getElem?_append_one (front : List ε) (last : ε) (index : Nat) :
    (front ++ [last])[index]? = if index = front.length then some last else front[index]? := by
  rcases Nat.lt_trichotomy index front.length with below | equal | above
  · rw [List.getElem?_append_left below, if_neg (by omega)]
  · simp [equal]
  · rw [List.getElem?_append_right (by omega), List.getElem?_eq_none (by simp; omega),
      List.getElem?_eq_none (by omega), if_neg (by omega)]

theorem foldl_ignored {σ : Type} {next : σ → ε → σ} {state : σ} {trace : List ε}
    (ignored : ∀ event ∈ trace, next state event = state) : trace.foldl next state = state := by
  induction trace with
  | nil => rfl
  | cons event rest ih =>
      rw [List.foldl_cons, ignored event (by simp)]
      exact ih fun later member => ignored later (by simp [member])

/-- Holds of every event and all that went before it. -/
def Always (holds : List ε → ε → Prop) (trace : List ε) : Prop :=
  ∀ past event rest, trace = past ++ event :: rest → holds past event

theorem append_eq_append_cons {first second past rest : List ε} {event : ε}
    (split : first ++ second = past ++ event :: rest) :
    (∃ tail, first = past ++ event :: tail ∧ rest = tail ++ second) ∨
      ∃ front, past = first ++ front ∧ second = front ++ event :: rest := by
  rcases List.append_eq_append_iff.mp split with ⟨front, pastEq, secondEq⟩ | ⟨tail, firstEq, consEq⟩
  · exact .inr ⟨front, pastEq, secondEq⟩
  · cases tail with
    | nil =>
        refine .inr ⟨[], by simpa using firstEq.symm, by simpa using consEq.symm⟩
    | cons head tail =>
        simp only [List.cons_append, List.cons.injEq] at consEq
        obtain ⟨rfl, restEq⟩ := consEq
        exact .inl ⟨tail, firstEq, restEq⟩

theorem Always.nil (holds : List ε → ε → Prop) : Always holds [] := by
  intro past event rest split
  simp at split

theorem Always.append {holds : List ε → ε → Prop} {first second : List ε}
    (before : Always holds first)
    (after : Always (fun past event => holds (first ++ past) event) second) :
    Always holds (first ++ second) := by
  intro past event rest split
  rcases append_eq_append_cons split with ⟨tail, firstEq, -⟩ | ⟨front, pastEq, secondEq⟩
  · exact before past event tail firstEq
  · exact pastEq ▸ after front event rest secondEq

theorem always_append {holds : List ε → ε → Prop} {first second : List ε} :
    Always holds (first ++ second) ↔
      Always holds first ∧ Always (fun past event => holds (first ++ past) event) second := by
  constructor
  · intro always
    constructor
    · intro past event rest split
      exact always past event (rest ++ second) (by simp [split])
    · intro past event rest split
      exact always (first ++ past) event rest (by simp [split])
  · rintro ⟨before, after⟩
    exact before.append after

theorem always_singleton {holds : List ε → ε → Prop} {event : ε} :
    Always holds [event] ↔ holds [] event := by
  constructor
  · intro always
    exact always [] event [] rfl
  · intro here past other rest split
    cases past with
    | nil =>
        simp only [List.nil_append, List.cons.injEq] at split
        exact split.1 ▸ here
    | cons head tail => simp at split

theorem Always.cons {holds : List ε → ε → Prop} {event : ε} {tail : List ε}
    (here : holds [] event) (after : Always (fun past => holds (event :: past)) tail) :
    Always holds (event :: tail) := by
  have joined := (always_singleton.mpr here).append after
  exact joined

theorem always_cons {holds : List ε → ε → Prop} {event : ε} {tail : List ε} :
    Always holds (event :: tail) ↔
      holds [] event ∧ Always (fun past => holds (event :: past)) tail := by
  have joined := @always_append _ holds [event] tail
  rw [always_singleton] at joined
  exact joined

instance decidableAlways : (holds : List ε → ε → Prop) →
    [∀ past event, Decidable (holds past event)] → (trace : List ε) → Decidable (Always holds trace)
  | holds, _, [] => isTrue (.nil holds)
  | holds, _, event :: tail =>
      have := decidableAlways (fun past => holds (event :: past)) tail
      decidable_of_iff _ always_cons.symm

theorem Always.of_forall {holds : List ε → ε → Prop} {trace : List ε}
    (each : ∀ past, ∀ event ∈ trace, holds past event) : Always holds trace := by
  intro past event rest split
  exact each past event (by simp [split])

end FolderWatch.Trace
