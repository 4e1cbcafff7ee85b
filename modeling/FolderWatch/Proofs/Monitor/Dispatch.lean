import FolderWatch.Proofs.Listener
import FolderWatch.Proofs.Monitor.Isolation

/-!
Listeners that handle single changes, inside a cycle. Each is given its report change by change in
the state that all calls before it left, and a panic ends this one delivery. The cycle goes on with
the next delivery as if nothing had happened.
-/

namespace FolderWatch.Monitor

variable {σ : Type} {handle : Subscriber → σ → Change → Verdict × σ} {state : σ}
variable {first middle last : Monitor} {actor : Actor} {comparison : Comparison}
variable {account : Account} {shown : List Event} {result : Except Fault Nat}

/-- Deliveries one after the other, each with what becomes of it. -/
def handleAll (handle : Subscriber → σ → Change → Verdict × σ) (state : σ) :
    List Delivery → List (Delivery × Listener.Delivery σ)
  | [] => []
  | delivery :: left =>
      let made := Listener.deliver (handle delivery.subscriber) delivery.report state
      (delivery, made) :: handleAll handle made.state left

/-- The state that deliveries leave behind. -/
def stateLeft (state : σ) (made : List (Delivery × Listener.Delivery σ)) : σ :=
  made.foldl (fun _ one => one.2.state) state

def verdictOf (made : Delivery × Listener.Delivery σ) : Delivery × Verdict :=
  (made.1, made.2.verdict)

/-- The listeners that a cycle called answered as these handlers do. -/
def Account.Handled (handle : Subscriber → σ → Change → Verdict × σ) (state : σ)
    (account : Account) : Prop :=
  account.told = (handleAll handle state (account.told.map Prod.fst)).map verdictOf

instance (handle : Subscriber → σ → Change → Verdict × σ) (state : σ) (account : Account) :
    Decidable (account.Handled handle state) :=
  inferInstanceAs (Decidable (_ = _))

theorem handleAll_append (front tail : List Delivery) :
    handleAll handle state (front ++ tail) =
      handleAll handle state front ++
        handleAll handle (stateLeft state (handleAll handle state front)) tail := by
  induction front generalizing state with
  | nil => rfl
  | cons delivery rest ih => simp only [List.cons_append, handleAll, ih, stateLeft, List.foldl_cons]

theorem Account.Handled.snoc (handled : account.Handled handle state) (delivery : Delivery)
    {made : Listener.Delivery σ}
    (makes : Listener.deliver (handle delivery.subscriber) delivery.report
      (stateLeft state (handleAll handle state (account.told.map Prod.fst))) = made) :
    Account.Handled handle state
      { account with told := account.told ++ [(delivery, made.verdict)] } := by
  unfold Account.Handled at handled ⊢
  simp only [List.map_append, handleAll_append, List.map_cons, List.map_nil, handleAll, makes]
  rw [← handled]
  rfl

end FolderWatch.Monitor
