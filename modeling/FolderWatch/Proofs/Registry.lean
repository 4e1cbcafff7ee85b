import Mathlib.Logic.Function.Basic
import FolderWatch.Monitor.Registry

/-!
A registry is known from the calls that it served. Of each object the earliest registrations are
gone, as many as were taken out, and all others are there in the order in which they came in.
-/

namespace FolderWatch.Registry

variable {α : Type}

/-- Objects were taken in; or the earliest registration of an object was to be taken out, and there
was one or none. -/
inductive Call (α : Type) where
  | added (items : List α)
  | removed (identity : Identity) (found : Bool)
  deriving DecidableEq, Repr

section Calls

variable {call : Call α} {calls past later : List (Call α)} {identity : Identity}

def Call.items : Call α → List α
  | added items => items
  | removed .. => []

/-- Whether the call is to take this object out. -/
def Call.asksFor (identity : Identity) : Call α → Bool
  | added _ => false
  | removed asked _ => asked = identity

/-- Whether the call took one of these objects out. -/
def Call.takes (chosen : Identity → Bool) : Call α → Bool
  | added _ => false
  | removed identity found => found && chosen identity

def additions (calls : List (Call α)) : List α := calls.flatMap Call.items

def attempts (calls : List (Call α)) (identity : Identity) : Nat :=
  calls.countP (Call.asksFor identity)

def takings (calls : List (Call α)) (chosen : Identity → Bool) : Nat :=
  calls.countP (Call.takes chosen)

def removals (calls : List (Call α)) (identity : Identity) : Nat :=
  takings calls fun taken => taken = identity

@[simp] theorem additions_cons : additions (call :: calls) = call.items ++ additions calls := rfl

@[simp] theorem takings_added (items : List α) (chosen : Identity → Bool) :
    takings (.added items :: calls) chosen = takings calls chosen :=
  List.countP_cons_of_neg Bool.false_ne_true

@[simp] theorem takings_removed (identity : Identity) (found : Bool) (chosen : Identity → Bool) :
    takings (.removed identity found :: calls) chosen =
      takings calls chosen + if found && chosen identity then 1 else 0 :=
  List.countP_cons

@[simp] theorem attempts_added (items : List α) :
    attempts (.added items :: calls) identity = attempts calls identity :=
  List.countP_cons_of_neg Bool.false_ne_true

@[simp] theorem attempts_removed (asked : Identity) (found : Bool) :
    attempts (.removed asked found :: calls) identity =
      attempts calls identity + if asked = identity then 1 else 0 := by
  simp [attempts, List.countP_cons, Call.asksFor]

@[simp] theorem removals_added (items : List α) :
    removals (.added items :: calls) = removals calls :=
  funext fun _ => takings_added ..

@[simp] theorem removals_missed (asked : Identity) :
    removals (.removed asked false :: calls) = removals calls :=
  funext fun _ => takings_removed ..

@[simp] theorem removals_found (asked : Identity) :
    removals (.removed asked true :: calls) =
      Function.update (removals calls) asked (removals calls asked + 1) := by
  funext identity
  by_cases same : identity = asked
  · subst same
    simp [removals]
  · simp [removals, same, Ne.symm same]

end Calls

variable [Identified α]
variable {registry first middle last : Registry α} {calls past later : List (Call α)}
variable {identity : Identity} {found : Bool} {chosen : Identity → Bool} {gone : Identity → Nat}

/-- How many registrations there are of these objects. -/
def tally (registry : Registry α) (chosen : Identity → Bool) : Nat :=
  registry.countP fun item => chosen (Identified.identity item)

def multiplicity (registry : Registry α) (identity : Identity) : Nat :=
  tally registry fun held => held = identity

def Lacks (registry : Registry α) (identity : Identity) : Prop :=
  ∀ item ∈ registry, Identified.identity item ≠ identity

/-- What is left of registrations when so many of each object, the earliest first, are gone. -/
def remaining (gone : Identity → Nat) : List α → Registry α
  | [] => []
  | item :: rest =>
      let identity := Identified.identity item
      match gone identity with
      | 0 => item :: remaining gone rest
      | more + 1 => remaining (Function.update gone identity more) rest

/-- What a registry that was empty holds after these calls. -/
def left (calls : List (Call α)) : Registry α := remaining (removals calls) (additions calls)

/-- The calls that take a registry from one state to another. -/
inductive Served : Registry α → List (Call α) → Registry α → Prop
  | rest (registry : Registry α) : Served registry [] registry
  | adds {registry last : Registry α} {calls : List (Call α)} (items : List α)
      (later : Served (registry ++ items) calls last) :
      Served registry (.added items :: calls) last
  | removes {registry last : Registry α} {calls : List (Call α)} (identity : Identity)
      (later : Served (registry.remove identity) calls last) :
      Served registry (.removed identity (registry.holds identity) :: calls) last

/-- What the removal of an object does to a registry, and what it answers. -/
structure Removal (before : Registry α) (identity : Identity) (found : Bool)
    (after : Registry α) : Prop where
  found_iff : found = true ↔ ∃ item ∈ before, Identified.identity item = identity
  taken : found = true → ∃ front item back, before = front ++ item :: back ∧
    Identified.identity item = identity ∧ Lacks front identity ∧ after = front ++ back
  missed : found = false → after = before

/-- The state of a registry that was empty before these calls. -/
structure Exact (calls : List (Call α)) (last : Registry α) : Prop where
  registrations : last = left calls
  order : last.Sublist (additions calls)
  count : last.length + takings calls (fun _ => true) = (additions calls).length
  balance : ∀ identity, multiplicity last identity + removals calls identity =
    multiplicity (additions calls) identity
  removal : ∀ past identity found later, calls = past ++ .removed identity found :: later →
    Removal (left past) identity found (left (past ++ [.removed identity found]))
  /-- As long as an object is not added again, as many removals succeed as it had registrations. -/
  exhausted : ∀ past later identity, calls = past ++ later → Lacks (additions later) identity →
    removals later identity = min (multiplicity (left past) identity) (attempts later identity)
  stranger : ∀ identity, Lacks (additions calls) identity → removals calls identity = 0

@[simp] theorem tally_nil : tally ([] : Registry α) chosen = 0 := rfl

@[simp] theorem tally_append (front back : List α) :
    tally (front ++ back) chosen = tally front chosen + tally back chosen :=
  List.countP_append

@[simp] theorem tally_cons (item : α) (rest : List α) :
    tally (item :: rest) chosen =
      tally rest chosen + if chosen (Identified.identity item) then 1 else 0 :=
  List.countP_cons

theorem tally_true (registry : Registry α) : tally registry (fun _ => true) = registry.length := by
  simp [tally]

theorem multiplicity_append (front back : List α) :
    multiplicity (front ++ back) identity =
      multiplicity front identity + multiplicity back identity :=
  tally_append ..

theorem lacks_append {front back : List α} :
    Lacks (front ++ back) identity ↔ Lacks front identity ∧ Lacks back identity :=
  List.forall_mem_append

theorem lacks_iff : Lacks registry identity ↔ multiplicity registry identity = 0 := by
  simp [Lacks, multiplicity, tally, List.countP_eq_zero]

theorem holds_iff : registry.holds identity = true ↔
    ∃ item ∈ registry, Identified.identity item = identity := by
  simp [holds]

theorem lacks_of_not_holds (missing : registry.holds identity = false) :
    Lacks registry identity := by
  simpa [holds, Lacks] using missing

theorem removal_remove (registry : Registry α) (identity : Identity) :
    Removal registry identity (registry.holds identity) (registry.remove identity) where
  found_iff := holds_iff
  taken := by
    intro held
    obtain ⟨item, member, named⟩ := holds_iff.1 held
    obtain ⟨taken, front, back, before, own, split, removed⟩ := List.exists_of_eraseP member
      (p := fun item => decide (Identified.identity item = identity)) (by simpa using named)
    exact ⟨front, taken, back, split, by simpa using own, fun other among =>
      by simpa using before other among, removed⟩
  missed := by
    intro missing
    exact List.eraseP_of_forall_not fun item member => by
      simpa using lacks_of_not_holds missing item member

theorem tally_remove (held : registry.holds identity = true) (chosen : Identity → Bool) :
    tally (registry.remove identity) chosen + (if chosen identity then 1 else 0) =
      tally registry chosen := by
  obtain ⟨front, item, back, split, named, -, removed⟩ :=
    (removal_remove registry identity).taken held
  rw [removed, split]
  simp [named, Nat.add_assoc]

theorem multiplicity_remove (held : registry.holds identity = true) (other : Identity) :
    multiplicity (registry.remove identity) other + (if identity = other then 1 else 0) =
      multiplicity registry other := by
  simpa [multiplicity] using tally_remove held fun held => held = other

theorem remaining_of_none (none : ∀ identity, gone identity = 0) (items : List α) :
    remaining gone items = items := by
  induction items with
  | nil => rfl
  | cons item rest ih => simp [remaining, none, ih]

/-- One more of an object is gone when its earliest registration is taken out first. -/
theorem remaining_remove (held : registry.holds identity = true) (more : List α) :
    remaining (Function.update gone identity (gone identity + 1)) (registry ++ more) =
      remaining gone (registry.remove identity ++ more) := by
  induction registry generalizing gone with
  | nil => simp [holds] at held
  | cons item rest ih =>
      -- Here the one more is used up at once; anywhere else it goes on to the rest, where the counts
      -- of two different objects change one after the other.
      by_cases same : Identified.identity item = identity
      · have removed : remove (item :: rest) identity = rest := by simp [remove, same]
        have counted : Function.update (Function.update gone identity (gone identity + 1)) identity
            (gone identity) = gone := by simp
        simp [removed, remaining, same, counted]
      · have removed : remove (item :: rest) identity = item :: remove rest identity := by
          simp [remove, same]
        have held : holds rest identity = true := by simpa [holds, same] using held
        rw [removed]
        simp only [List.cons_append, remaining, Function.update_of_ne same]
        cases gone (Identified.identity item) with
        | zero => rw [ih held]
        | succ fewer =>
            have apart := Function.update_of_ne (Ne.symm same) fewer gone
            simp only [Function.update_comm same, ← ih held, apart]

theorem remaining_sublist (gone : Identity → Nat) (items : List α) :
    (remaining gone items).Sublist items := by
  induction items generalizing gone with
  | nil => exact .refl _
  | cons item rest ih =>
      simp only [remaining]
      split
      · exact (ih gone).cons_cons item
      · exact (ih _).cons item

/-- Objects of which none is gone are all there. -/
theorem filter_remaining (chosen : Identity → Bool)
    (spared : ∀ identity, chosen identity = true → gone identity = 0) (items : List α) :
    (remaining gone items).filter (fun item => chosen (Identified.identity item)) =
      items.filter fun item => chosen (Identified.identity item) := by
  induction items generalizing gone with
  | nil => rfl
  | cons item rest ih =>
      simp only [remaining]
      split
      · simp only [List.filter_cons, ih spared]
      · rename_i fewer some
        have other : chosen (Identified.identity item) = false := by
          cases mine : chosen (Identified.identity item) with
          | false => rfl
          | true => simp [spared _ mine] at some
        rw [List.filter_cons_of_neg (by simp [other])]
        refine ih fun identity mine => ?_
        have apart : identity ≠ Identified.identity item := by
          rintro rfl
          simp [other] at mine
        rw [Function.update_of_ne apart, spared identity mine]

theorem Served.trans (before : Served first past middle) (after : Served middle later last) :
    Served first (past ++ later) last := by
  induction before with
  | rest => exact after
  | adds items _ ih => exact .adds items (ih after)
  | removes identity _ ih => exact .removes identity (ih after)

theorem Served.split (served : Served first (past ++ later) last) :
    ∃ middle, Served first past middle ∧ Served middle later last := by
  induction past generalizing first with
  | nil => exact ⟨first, .rest first, served⟩
  | cons call past ih =>
      cases served with
      | adds items later =>
          obtain ⟨middle, before, after⟩ := ih later
          exact ⟨middle, .adds items before, after⟩
      | removes identity later =>
          obtain ⟨middle, before, after⟩ := ih later
          exact ⟨middle, .removes identity before, after⟩

/-- The registrations there were and those that came, without those that were taken out. -/
theorem Served.eq_remaining (served : Served first calls last) :
    last = remaining (removals calls) (first ++ additions calls) := by
  induction served with
  | rest registry =>
      exact ((remaining_of_none (fun _ => rfl) _).trans (List.append_nil registry)).symm
  | adds items later ih =>
      rw [ih]
      simp [Call.items]
  | @removes registry last calls identity later ih =>
      rw [ih]
      cases held : registry.holds identity with
      | true =>
          rw [removals_found, additions_cons, ← remaining_remove held]
          rfl
      | false =>
          rw [removals_missed, (removal_remove registry identity).missed held]
          rfl

theorem Served.eq_left (served : Served [] calls last) : last = left calls := served.eq_remaining

theorem Served.tally (served : Served first calls last) (chosen : Identity → Bool) :
    tally last chosen + takings calls chosen =
      tally first chosen + tally (additions calls) chosen := by
  induction served with
  | rest registry => rfl
  | adds items later ih =>
      rw [takings_added, ih]
      simp [Call.items, Nat.add_assoc]
  | @removes registry last calls asked later ih =>
      rw [takings_removed]
      cases held : registry.holds asked with
      | true =>
          have less := tally_remove held chosen
          simp only [Bool.true_and, additions_cons, Call.items, List.nil_append]
          omega
      | false =>
          rw [(removal_remove registry asked).missed held] at ih
          simpa [Call.items] using ih

/-- Attempts on an object succeed until its registrations are used up. -/
theorem Served.exhausts (served : Served first calls last)
    (lacks : Lacks (additions calls) identity) :
    removals calls identity = min (multiplicity first identity) (attempts calls identity) := by
  induction served with
  | rest registry => exact (Nat.min_zero _).symm
  | @adds registry last calls items later ih =>
      rw [additions_cons, lacks_append] at lacks
      have none := lacks_iff.1 lacks.1
      rw [removals_added, ih lacks.2, multiplicity_append]
      simp only [Call.items] at none
      simp [none]
  | @removes registry last calls asked later ih =>
      have before := ih lacks
      cases held : registry.holds asked with
      | true =>
          have less := multiplicity_remove held identity
          rw [removals_found, attempts_removed]
          by_cases same : identity = asked
          · subst same
            rw [Function.update_self, before, ← less]
            simp [Nat.add_min_add_right]
          · rw [Function.update_of_ne same, before, ← less]
            simp [Ne.symm same]
      | false =>
          rw [(removal_remove registry asked).missed held] at before
          rw [removals_missed, before, attempts_removed]
          by_cases same : asked = identity
          · have none := lacks_iff.1 (lacks_of_not_holds held)
            simp [← same, none]
          · simp [same]

theorem Served.answers (served : Served [] (past ++ .removed identity found :: later) last) :
    Removal (left past) identity found (left (past ++ [.removed identity found])) := by
  rw [List.append_cons] at served
  obtain ⟨after, whole, -⟩ := served.split
  obtain ⟨before, reached, call⟩ := whole.split
  rw [← reached.eq_left, ← whole.eq_left]
  cases call with
  | removes _ ended =>
      cases ended
      exact removal_remove before identity

theorem Served.isExact (served : Served [] calls last) : Exact calls last where
  registrations := served.eq_left
  order := served.eq_left ▸ remaining_sublist ..
  count := by
    simpa [tally_true] using served.tally fun _ => true
  balance identity := by
    simpa [multiplicity, removals] using served.tally fun other => other = identity
  removal := by
    rintro past identity found later rfl
    exact served.answers
  exhausted := by
    rintro past later identity rfl lacks
    obtain ⟨middle, before, after⟩ := served.split
    rw [← before.eq_left]
    exact after.exhausts lacks
  stranger identity lacks := (served.exhausts lacks).trans (Nat.zero_min _)

end FolderWatch.Registry
