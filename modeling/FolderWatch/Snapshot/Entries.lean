import FolderWatch.Path.Order

/-!
Lists of values keyed by path, kept in path order. Looking a path up does not depend on its
spelling; an insertion changes what is found at one path and nothing else.
-/

namespace FolderWatch

abbrev Entries (α : Type) := List (Path × α)

inductive KeptSpelling where
  | first
  | last
  deriving DecidableEq, Repr

namespace Entries

variable {α : Type}

def Sorted (entries : Entries α) : Prop :=
  entries.Pairwise fun left right => left.1.Before right.1

def lookup (path : Path) : Entries α → Option α
  | [] => none
  | (key, value) :: rest => if path.Same key then some value else lookup path rest

def insert (kept : KeptSpelling) (path : Path) (value : α) : Entries α → Entries α
  | [] => [(path, value)]
  | (key, old) :: rest =>
      match compare path key with
      | .lt => (path, value) :: (key, old) :: rest
      | .eq => (if kept = .last then path else key, value) :: rest
      | .gt => (key, old) :: insert kept path value rest

def erase (path : Path) : Entries α → Entries α
  | [] => []
  | (key, value) :: rest => if path.Same key then rest else (key, value) :: erase path rest

theorem lookup_eq_of_same {path path' : Path} (same : path.Same path') (entries : Entries α) :
    entries.lookup path = entries.lookup path' := by
  induction entries with
  | nil => rfl
  | cons entry rest ih =>
      have keys : path.Same entry.1 ↔ path'.Same entry.1 :=
        ⟨fun h => same.symm.trans h, fun h => same.trans h⟩
      simp only [lookup, keys, ih]

theorem mem_insert {kept : KeptSpelling} {path : Path} {value : α} {entries : Entries α}
    {entry : Path × α} (member : entry ∈ entries.insert kept path value) :
    entry.1.Same path ∨ entry ∈ entries := by
  induction entries with
  | nil =>
      simp only [insert, List.mem_singleton] at member
      exact .inl (by rw [member]; exact .refl _)
  | cons head rest ih =>
      simp only [insert] at member
      split at member
      · rcases List.mem_cons.1 member with rfl | member
        · exact .inl (.refl _)
        · exact .inr member
      · rename_i equal
        rcases List.mem_cons.1 member with rfl | member
        · left
          dsimp only
          split
          · exact .refl _
          · exact (Path.compare_eq_iff_same.1 equal).symm
        · exact .inr (List.mem_cons_of_mem _ member)
      · rcases List.mem_cons.1 member with rfl | member
        · exact .inr List.mem_cons_self
        · exact (ih member).imp id (List.mem_cons_of_mem _)

theorem Sorted.insert {entries : Entries α} (sorted : entries.Sorted) (kept : KeptSpelling)
    (path : Path) (value : α) : (entries.insert kept path value).Sorted := by
  induction entries with
  | nil => simp [Sorted, Entries.insert]
  | cons head rest ih =>
      have headBefore := (List.pairwise_cons.1 sorted).1
      have restSorted := (List.pairwise_cons.1 sorted).2
      simp only [Entries.insert]
      split
      · rename_i less
        refine List.pairwise_cons.2 ⟨?_, sorted⟩
        intro entry member
        rcases List.mem_cons.1 member with rfl | member
        · exact less
        · exact Path.Before.trans less (headBefore entry member)
      · rename_i equal
        refine List.pairwise_cons.2 ⟨?_, restSorted⟩
        intro entry member
        dsimp only
        split
        · exact ((Path.compare_eq_iff_same.1 equal).compare_left entry.1).trans
            (headBefore entry member)
        · exact headBefore entry member
      · rename_i greater
        refine List.pairwise_cons.2 ⟨?_, ih restSorted⟩
        intro entry member
        rcases mem_insert member with same | member
        · exact (same.compare_right head.1).trans (Path.before_of_gt greater)
        · exact headBefore entry member

theorem lookup_insert (kept : KeptSpelling) (path query : Path) (value : α) (entries : Entries α) :
    (entries.insert kept path value).lookup query =
      if query.Same path then some value else entries.lookup query := by
  induction entries with
  | nil => simp [insert, lookup]
  | cons head rest ih =>
      simp only [insert]
      split
      · simp [lookup]
      · rename_i equal
        have same := Path.compare_eq_iff_same.1 equal
        have keys : query.Same head.1 ↔ query.Same path :=
          ⟨fun h => h.trans same.symm, fun h => h.trans same⟩
        by_cases found : query.Same path
        · split <;> simp [lookup, found, keys]
        · split <;> simp [lookup, found, keys]
      · rename_i greater
        simp only [lookup, ih]
        by_cases atHead : query.Same head.1
        · have apart : ¬ query.Same path := fun same =>
            (Path.before_of_gt greater).not_same (atHead.symm.trans same)
          simp [atHead, apart]
        · simp [atHead]

theorem Sorted.erase {entries : Entries α} (sorted : entries.Sorted) (path : Path) :
    (entries.erase path).Sorted := by
  refine List.Pairwise.sublist ?_ sorted
  induction entries with
  | nil => exact .slnil
  | cons head rest ih =>
      simp only [Entries.erase]
      split
      · exact List.sublist_cons_self _ _
      · exact (ih (List.pairwise_cons.1 sorted).2).cons_cons _

theorem lookup_eq_none_iff {path : Path} {entries : Entries α} :
    entries.lookup path = none ↔ ∀ entry ∈ entries, ¬ path.Same entry.1 := by
  induction entries with
  | nil => simp [lookup]
  | cons head rest ih =>
      by_cases same : path.Same head.1 <;> simp [lookup, same, ih]

theorem Sorted.lookup_of_mem {entries : Entries α} (sorted : entries.Sorted) {entry : Path × α}
    (member : entry ∈ entries) : entries.lookup entry.1 = some entry.2 := by
  induction entries with
  | nil => simp at member
  | cons head rest ih =>
      rcases List.mem_cons.1 member with rfl | member
      · simp [lookup, Path.Same.refl]
      · have before := (List.pairwise_cons.1 sorted).1 entry member
        have apart : ¬ entry.1.Same head.1 := fun same => before.not_same same.symm
        simp [lookup, apart, ih (List.pairwise_cons.1 sorted).2 member]

theorem Sorted.lookup_erase {entries : Entries α} (sorted : entries.Sorted) (path query : Path) :
    (entries.erase path).lookup query =
      if query.Same path then none else entries.lookup query := by
  induction entries with
  | nil => simp [Entries.erase, lookup]
  | cons head rest ih =>
      have restSorted := (List.pairwise_cons.1 sorted).2
      simp only [Entries.erase]
      by_cases atHead : path.Same head.1
      · have keys : query.Same head.1 ↔ query.Same path :=
          ⟨fun h => h.trans atHead.symm, fun h => h.trans atHead⟩
        simp only [atHead, if_true, lookup, keys]
        split
        · rename_i found
          refine lookup_eq_none_iff.2 fun entry member same => ?_
          exact ((List.pairwise_cons.1 sorted).1 entry member).not_same
            ((found.trans atHead).symm.trans same)
        · rfl
      · simp only [atHead, if_false, lookup, ih restSorted]
        by_cases found : query.Same head.1
        · have apart : ¬ query.Same path := fun same => atHead (same.symm.trans found)
          simp [found, apart]
        · simp [found]

end Entries

end FolderWatch
