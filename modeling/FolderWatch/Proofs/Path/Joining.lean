import FolderWatch.Path

/-!
A directory joined with the name of one of its entries has one component more, whatever way the
directory is spelled. So entries with different names have different paths.
-/

namespace FolderWatch.Path

variable {directory : Path} {name other : List UInt8}

/-- What a directory can list: a name that is one component, and not the directory itself. -/
structure IsName (name : List UInt8) : Prop where
  unempty : name ≠ []
  elsewhere : name ≠ [dot]
  unbroken : slash ∉ name

instance (name : List UInt8) : Decidable (IsName name) :=
  decidable_of_iff (name ≠ [] ∧ name ≠ [dot] ∧ slash ∉ name)
    ⟨fun ⟨unempty, elsewhere, unbroken⟩ => ⟨unempty, elsewhere, unbroken⟩,
      fun named => ⟨named.unempty, named.elsewhere, named.unbroken⟩⟩

/-- What the first segment of a path that is not empty stands for. -/
def Segment.leading (segment : List UInt8) : List Component :=
  if segment = [] then [.root]
  else if segment = [dot] then [.here]
  else (component? segment).toList

theorem exists_segments (bytes : List UInt8) : ∃ first rest, segments bytes = first :: rest := by
  cases bytes with
  | nil => exact ⟨_, _, rfl⟩
  | cons byte rest =>
      simp only [segments]
      split
      · exact ⟨_, _, rfl⟩
      · split <;> exact ⟨_, _, rfl⟩

theorem segments_append_slash (front tail : List UInt8) :
    segments (front ++ slash :: tail) = segments front ++ segments tail := by
  induction front with
  | nil => simp [segments]
  | cons byte rest ih =>
      obtain ⟨first, more, split⟩ := exists_segments rest
      simp only [List.cons_append, segments, ih, split]
      by_cases slashed : byte = slash <;> simp [slashed]

theorem segments_of_unbroken (unbroken : slash ∉ name) : segments name = [name] := by
  induction name with
  | nil => rfl
  | cons byte rest ih =>
      simp only [List.mem_cons, not_or] at unbroken
      simp [segments, ih unbroken.2, Ne.symm unbroken.1]

theorem eq_nil_of_segments {bytes : List UInt8} (blank : segments bytes = [[]]) : bytes = [] := by
  cases bytes with
  | nil => rfl
  | cons byte rest =>
      obtain ⟨first, more, split⟩ := exists_segments rest
      by_cases slashed : byte = slash <;> simp [segments, slashed, split] at blank

theorem components_of_segments {path : Path} {first : List UInt8} {rest : List (List UInt8)}
    (unempty : path.bytes ≠ []) (split : segments path.bytes = first :: rest) :
    path.components = Segment.leading first ++ rest.filterMap Segment.component? := by
  unfold components
  rw [split]
  cases first with
  | nil =>
      cases rest with
      | nil => exact absurd (eq_nil_of_segments split) unempty
      | cons second more => rfl
  | cons byte more =>
      by_cases here : byte :: more = [dot]
      · simp [Segment.leading, here]
      · cases part : Segment.component? (byte :: more) <;> simp [Segment.leading, here, part]

theorem components_append_slash {front : List UInt8} {first : List UInt8}
    {rest : List (List UInt8)} (split : segments front = first :: rest) (tail : List UInt8) :
    components ⟨front ++ slash :: tail⟩ =
      Segment.leading first ++ (rest ++ segments tail).filterMap Segment.component? := by
  refine components_of_segments (by simp) ?_
  rw [segments_append_slash, split, List.cons_append]

theorem components_join (named : IsName name) :
    (directory.join ⟨name⟩).components =
      directory.components ++ (Segment.component? name).toList := by
  have alone := segments_of_unbroken named.unbroken
  have relative : (⟨name⟩ : Path).isAbsolute = false := by
    simp only [isAbsolute, decide_eq_false_iff_not]
    exact fun absolute => named.unbroken (List.mem_of_head? absolute)
  obtain ⟨bytes⟩ := directory
  by_cases empty : bytes = []
  · subst empty
    have joined : (⟨[]⟩ : Path).join ⟨name⟩ = ⟨name⟩ := by simp [join, relative]
    rw [joined, components_of_segments named.unempty alone]
    simp [Segment.leading, named.unempty, named.elsewhere, components, segments]
  by_cases slashed : bytes.getLast? = some slash
  · obtain ⟨front, rfl⟩ := List.getLast?_eq_some_iff.1 slashed
    obtain ⟨first, rest, split⟩ := exists_segments front
    have joined : (⟨front ++ [slash]⟩ : Path).join ⟨name⟩ = ⟨front ++ slash :: name⟩ := by
      simp [join, relative]
    rw [joined, components_append_slash split, components_append_slash split, alone]
    have blank : Segment.component? [] = none := rfl
    cases part : Segment.component? name <;> simp [segments, List.filterMap_append, blank, part]
  · obtain ⟨first, rest, split⟩ := exists_segments bytes
    have joined : (⟨bytes⟩ : Path).join ⟨name⟩ = ⟨bytes ++ slash :: name⟩ := by
      simp [join, relative, empty, slashed]
    rw [joined, components_append_slash split, components_of_segments empty split, alone]
    cases part : Segment.component? name <;> simp [List.filterMap_append, part]

theorem join_same_iff (named : IsName name) (otherNamed : IsName other) :
    (directory.join ⟨name⟩).Same (directory.join ⟨other⟩) ↔ name = other := by
  constructor
  · intro same
    simp only [Same, components_join named, components_join otherNamed] at same
    have parts := List.append_cancel_left same
    simp only [Segment.component?, named.unempty, named.elsewhere, otherNamed.unempty,
      otherNamed.elsewhere, or_self, if_false] at parts
    by_cases parent : name = [dot, dot] <;> by_cases otherParent : other = [dot, dot] <;>
      simp_all
  · rintro rfl
    exact .refl _

end FolderWatch.Path
