import FolderWatch.Proofs.Json.Literals

/-!
Objects and what reading them gives. An object written member by member is read member by member,
each one taking the reader on from the state that the ones before it left; and what every member
keeps, the whole object keeps.
-/

namespace FolderWatch.Json

def member (name : String) (value : List Char) : List Char := quote name ++ ':' :: value

def object (members : List (List Char)) : List Char :=
  '{' :: (List.intercalate [','] members ++ ['}'])

section Members

variable {α σ : Type}

/-- The members that take a reader from one state to another. -/
inductive Takes (read : σ → String → Reader σ) : σ → List (List Char) → σ → Prop
  | nil (state : σ) : Takes read state [] state
  | cons {state next last : σ} {name : String} {value : List Char} {members : List (List Char)}
      (first : Reads (read state name) (':' :: value) next)
      (others : Takes read next members last) :
      Takes read state (member name value :: members) last

theorem member_append (name : String) (value rest : List Char) :
    member name value ++ rest = '"' :: ((quote name).tail ++ (':' :: value ++ rest)) := by
  simp [member, quote]

/-- What follows the first member: the others, each after a comma, and the brace. -/
def others (members : List (List Char)) (rest : List Char) : List Char :=
  (members.flatMap fun member => ',' :: member) ++ '}' :: rest

theorem ends_others (members : List (List Char)) (rest : List Char) :
    Ends (others members rest) := by
  cases members with
  | nil => exact ends_brace rest
  | cons first more => exact ends_comma _

theorem length_others (members : List (List Char)) (rest : List Char) :
    members.length < (others members rest).length := by
  induction members with
  | nil => simp [others]
  | cons first more ih =>
      simp only [others, List.length_append, List.flatMap_cons, List.length_cons] at ih ⊢
      omega

theorem object_cons (first : List Char) (more : List (List Char)) (rest : List Char) :
    object (first :: more) ++ rest = '{' :: (first ++ others more rest) := by
  induction more generalizing first with
  | nil => simp [object, others]
  | cons second more ih =>
      have tail := ih second
      simp_all [object, others, List.intercalate_cons_cons]

variable {read : σ → String → Reader σ} {state next last : σ} {members : List (List Char)}

theorem readMembers_member {name : String} {value rest : List Char} (fuel : Nat)
    (reads : Reads (read state name) (':' :: value) next) (ends : Ends rest) :
    readMembers read (fuel + 1) true state (member name value ++ rest) =
        readMembers read fuel false next rest ∧
      readMembers read (fuel + 1) false state (',' :: (member name value ++ rest)) =
        readMembers read fuel false next rest := by
  have named := readQuoted_quote name (':' :: value ++ rest)
  have taken := reads rest ends
  rw [member_append]
  have quoted (text : List Char) : skipBlank ('"' :: text) = '"' :: text := rfl
  have comma (text : List Char) : skipBlank (',' :: text) = ',' :: text := rfl
  constructor
  · simp only [readMembers, quoted, if_true, named, taken, bind, Except.bind]
  · simp only [readMembers, quoted, comma, Bool.false_eq_true, if_false, named, taken, bind,
      Except.bind]

theorem Takes.others (takes : Takes read state members last) (rest : List Char) {fuel : Nat}
    (enough : members.length < fuel) :
    readMembers read fuel false state (Json.others members rest) = .ok (last, rest) := by
  induction takes generalizing fuel with
  | nil =>
      cases fuel with
      | zero => omega
      | succ fuel => rfl
  | @cons state next last name value members first more ih =>
      cases fuel with
      | zero => simp at enough
      | succ fuel =>
          have step := (readMembers_member fuel first (ends_others members rest)).2
          have short : members.length < fuel := by simpa using enough
          have tail := ih short
          rw [← tail, ← step]
          simp only [Json.others, List.flatMap_cons, List.append_assoc, List.cons_append]

/-- An object reads as the state that its members lead to. -/
theorem Takes.object (takes : Takes read state members last) (rest : List Char) :
    ∃ body, Json.object members ++ rest = '{' :: body ∧
      readMembers read body.length true state body = .ok (last, rest) := by
  cases takes with
  | nil => exact ⟨'}' :: rest, rfl, rfl⟩
  | @cons _ next _ name value members first more =>
      refine ⟨member name value ++ Json.others members rest, object_cons .., ?_⟩
      have nonempty : 0 < (member name value).length := by simp [member, quote]
      have fits := length_others members rest
      obtain ⟨fuel, long⟩ : ∃ fuel,
          (member name value ++ Json.others members rest).length = fuel + 1 :=
        Nat.exists_eq_succ_of_ne_zero (by rw [List.length_append]; omega)
      have enough : members.length < fuel := by
        rw [List.length_append] at long
        omega
      rw [long, (readMembers_member fuel first (ends_others members rest)).1]
      exact more.others rest enough

variable {elements : Reader α} {start : σ} {finish : σ → Except Fault α} {value : α}

theorem readStructure_object (takes : Takes read start members last)
    (finished : finish last = .ok value) :
    Reads (readStructure elements start read finish) (object members) value := by
  intro rest _
  obtain ⟨body, opened, taken⟩ := takes.object rest
  have brace : skipBlank ('{' :: body) = '{' :: body := rfl
  rw [opened]
  simp only [readStructure, brace, taken, finished, bind, Except.bind, pure, Except.pure]

end Members

section Fields

variable {α σ : Type} {read : Reader α} {text : List Char} {value : α}

theorem expectColon_cons (rest : List Char) : expectColon (':' :: rest) = .ok rest := rfl

theorem readField_none (reads : Reads read text value) :
    Reads (readField none read) (':' :: text) (some value) := by
  intro rest ends
  simp only [readField, Option.isSome_none, Bool.false_eq_true, if_false, List.cons_append,
    expectColon_cons, reads rest ends, bind, Except.bind]
  rfl

theorem Reads.field (reads : Reads read text value) (setTo : Option α → σ) :
    Reads (fun text => do
      let (given, rest) ← readField none read text
      return (setTo given, rest)) (':' :: text) (setTo (some value)) := by
  intro rest ends
  simp only [readField_none reads rest ends, bind, Except.bind]
  rfl

end Fields

section Yields

variable {α β σ : Type}

/-- Whatever text is read, what is read from it satisfies the predicate. -/
def Yields (read : Reader α) (good : α → Prop) : Prop :=
  ∀ text value rest, read text = .ok (value, rest) → good value

variable {read : Reader α} {good : α → Prop}

theorem bind_eq_ok {attempt : Except Fault α} {next : α → Except Fault β} {result : β} :
    (attempt >>= next) = .ok result ↔ ∃ value, attempt = .ok value ∧ next value = .ok result := by
  cases attempt <;> simp [bind, Except.bind]

theorem required_eq_ok {given : Option α} {value : α} :
    required given = .ok value ↔ given = some value := by
  cases given <;> simp [required]

theorem Yields.option (yields : Yields read good) :
    Yields (readOption read) fun found => ∀ value ∈ found, good value := by
  intro text found rest taken
  unfold readOption at taken
  split at taken
  · obtain ⟨_, -, same⟩ := bind_eq_ok.1 taken
    cases same
    simp
  · obtain ⟨⟨value, _⟩, inner, same⟩ := bind_eq_ok.1 taken
    cases same
    simpa using yields _ _ _ inner

theorem Yields.field (yields : Yields read good) (given : Option α) :
    Yields (readField given read) fun found => ∀ value ∈ found, good value := by
  intro text found rest taken
  unfold readField at taken
  split at taken
  · cases taken
  · obtain ⟨_, -, colon⟩ := bind_eq_ok.1 taken
    obtain ⟨⟨value, _⟩, inner, same⟩ := bind_eq_ok.1 colon
    cases same
    simpa using yields _ _ _ inner

theorem Yields.element (yields : Yields read good) (first : Bool) :
    Yields (readElement first read) good := by
  intro text value rest taken
  obtain ⟨next, -, found⟩ := bind_eq_ok.1 taken
  cases next with
  | none => cases found
  | some more => exact yields _ _ _ found

variable {member : σ → String → Reader σ} {keeps : σ → Prop}

theorem Yields.skip {state : σ} (start : keeps state) : Yields (skipMember state) keeps := by
  intro text result rest taken
  obtain ⟨_, -, colon⟩ := bind_eq_ok.1 taken
  obtain ⟨_, -, same⟩ := bind_eq_ok.1 colon
  cases same
  exact start

theorem Yields.members (each : ∀ state name, keeps state → Yields (member state name) keeps)
    {state : σ} (start : keeps state) (fuel : Nat) (first : Bool) :
    Yields (readMembers member fuel first state) keeps := by
  induction fuel generalizing first state with
  | zero =>
      intro text value rest taken
      cases taken
  | succ fuel ih =>
      intro text value rest taken
      have goesOn {text : List Char} (taken : (readQuoted text >>= fun named =>
          member state named.1 named.2 >>= fun inner =>
            readMembers member fuel false inner.1 inner.2) = .ok (value, rest)) :
          keeps value := by
        obtain ⟨⟨name, _⟩, -, named⟩ := bind_eq_ok.1 taken
        obtain ⟨⟨next, _⟩, inner, more⟩ := bind_eq_ok.1 named
        exact ih (each state name start _ _ _ inner) false _ _ _ more
      unfold readMembers at taken
      simp only at taken
      split at taken
      · cases taken
      · cases taken
        exact start
      · split at taken
        · cases taken
        · split at taken
          · cases taken
          · exact goesOn taken
          · cases taken
      · split at taken
        · exact goesOn taken
        · cases taken
      · cases taken

theorem Yields.structure {elements : Reader α} {start : σ} {finish : σ → Except Fault α}
    (listed : Yields elements good) (begins : keeps start)
    (each : ∀ state name, keeps state → Yields (member state name) keeps)
    (finished : ∀ state value, keeps state → finish state = .ok value → good value) :
    Yields (readStructure elements start member finish) good := by
  intro text value rest taken
  unfold readStructure at taken
  split at taken
  · cases taken
  · obtain ⟨⟨listedValue, _⟩, inner, closed⟩ := bind_eq_ok.1 taken
    obtain ⟨_, -, same⟩ := bind_eq_ok.1 closed
    cases same
    exact listed _ _ _ inner
  · obtain ⟨⟨state, _⟩, inner, closed⟩ := bind_eq_ok.1 taken
    obtain ⟨result, made, same⟩ := bind_eq_ok.1 closed
    cases same
    exact finished state value (Yields.members each begins _ _ _ _ _ inner) made
  · cases taken

end Yields

end FolderWatch.Json
