import FolderWatch.Snapshot.Capture

/-!
A snapshot is known by what it finds at each path: two that find the same everywhere are equal up to
spelling. Snapshots made of records hold every record under a spelling of its own path.
-/

namespace FolderWatch

namespace Entries

variable {α : Type}

theorem mem_of_lookup {path : Path} {value : α} {entries : Entries α}
    (found : entries.lookup path = some value) :
    ∃ key, path.Same key ∧ (key, value) ∈ entries := by
  induction entries with
  | nil => simp [lookup] at found
  | cons head rest ih =>
      obtain ⟨key, first⟩ := head
      by_cases same : path.Same key
      · simp only [lookup, same, if_true, Option.some.injEq] at found
        exact ⟨key, same, by simp [found]⟩
      · simp only [lookup, same, if_false] at found
        obtain ⟨other, spelling, member⟩ := ih found
        exact ⟨other, spelling, List.mem_cons_of_mem _ member⟩

theorem lookup_of_before {path : Path} {entries : Entries α}
    (before : ∀ entry ∈ entries, path.Before entry.1) : entries.lookup path = none := by
  apply lookup_eq_none_iff.2
  intro entry member
  exact (before entry member).not_same

theorem Sorted.lookup_cons_of_before {path : Path} {head : Path × α} {rest : Entries α}
    (sorted : Sorted (head :: rest)) (before : path.Before head.1) :
    Entries.lookup path (head :: rest) = none := by
  apply lookup_of_before
  intro entry member
  rcases List.mem_cons.mp member with rfl | later
  · exact before
  · exact before.trans ((List.pairwise_cons.mp sorted).1 entry later)

theorem Sorted.lookup_tail {path : Path} {head : Path × α} {rest : Entries α}
    (sorted : Sorted (head :: rest)) (same : path.Same head.1) :
    Entries.lookup path rest = none := by
  apply lookup_of_before
  intro entry member
  have before := (List.pairwise_cons.mp sorted).1 entry member
  exact (same.compare_left entry.1).trans before

theorem Sorted.values_at {entries : Entries α} (sorted : entries.Sorted) (path : Path) :
    (entries.filter fun entry => path.Same entry.1).map Prod.snd =
      (entries.lookup path).toList := by
  induction entries with
  | nil => rfl
  | cons head rest ih =>
      by_cases same : path.Same head.1
      · have nothing : (rest.filter fun entry => path.Same entry.1) = [] := by
          have missing := lookup_eq_none_iff.mp (sorted.lookup_tail same)
          simpa [List.filter_eq_nil_iff] using missing
        simp [lookup, same, nothing]
      · simpa [lookup, same] using ih (List.pairwise_cons.mp sorted).2

end Entries

namespace Snapshot

theorem eq_of_entries {left right : Snapshot} (directory : left.directory = right.directory)
    (entries : left.entries = right.entries) : left = right := by
  cases left
  cases right
  simp_all

theorem same_lookups {left right : Entries FileRecord} (same : SameEntries left right)
    (path : Path) : Option.Rel FileRecord.Same (left.lookup path) (right.lookup path) := by
  induction left generalizing right with
  | nil =>
      cases right with
      | nil => exact .none
      | cons head rest => exact same.elim
  | cons head rest ih =>
      cases right with
      | nil => exact same.elim
      | cons other more =>
          obtain ⟨keys, records, tails⟩ := same
          have spelled : path.Same head.1 ↔ path.Same other.1 := by
            constructor
            · intro here
              exact here.trans keys
            · intro here
              exact here.trans keys.symm
          by_cases here : path.Same other.1
          · simpa [Entries.lookup, spelled, here] using records
          · simpa [Entries.lookup, spelled, here] using ih tails

theorem sameEntries_of_lookups {left right : Entries FileRecord} (leftSorted : left.Sorted)
    (rightSorted : right.Sorted)
    (agree : ∀ path, Option.Rel FileRecord.Same (left.lookup path) (right.lookup path)) :
    SameEntries left right := by
  induction left generalizing right with
  | nil =>
      cases right with
      | nil => trivial
      | cons other more =>
          have found := agree other.1
          simp only [Entries.lookup, Path.Same.refl, if_true] at found
          cases found
  | cons head rest ih =>
      cases right with
      | nil =>
          have found := agree head.1
          simp only [Entries.lookup, Path.Same.refl, if_true] at found
          cases found
      | cons other more =>
          cases order : compare head.1 other.1 with
          | lt =>
              -- The first path of one side would be missing on the other.
              have found := agree head.1
              rw [rightSorted.lookup_cons_of_before order] at found
              simp only [Entries.lookup, Path.Same.refl, if_true] at found
              cases found
          | gt =>
              have found := agree other.1
              rw [leftSorted.lookup_cons_of_before (Path.before_of_gt order)] at found
              simp only [Entries.lookup, Path.Same.refl, if_true] at found
              cases found
          | eq =>
              have keys := Path.compare_eq_iff_same.1 order
              have values := agree head.1
              simp only [Entries.lookup, Path.Same.refl, keys, if_true] at values
              have records : head.2.Same other.2 := by
                cases values
                assumption
              have tails : SameEntries rest more := by
                apply ih (List.pairwise_cons.mp leftSorted).2 (List.pairwise_cons.mp rightSorted).2
                intro path
                by_cases here : path.Same head.1
                · rw [leftSorted.lookup_tail here, rightSorted.lookup_tail (here.trans keys)]
                  exact .none
                · have apart : ¬ path.Same other.1 := fun same => here (same.trans keys.symm)
                  simpa [Entries.lookup, here, apart] using agree path
              exact ⟨keys, records, tails⟩

theorem same_iff {left right : Snapshot} :
    left.Same right ↔ left.directory.Same right.directory ∧
      ∀ path, Option.Rel FileRecord.Same (left.get? path) (right.get? path) := by
  constructor
  · rintro ⟨directories, entries⟩
    exact ⟨directories, same_lookups entries⟩
  · rintro ⟨directories, agree⟩
    exact ⟨directories, sameEntries_of_lookups left.sorted right.sorted agree⟩

theorem found_refl (found : Option FileRecord) : Option.Rel FileRecord.Same found found := by
  cases found with
  | none => exact .none
  | some record => exact .some (.refl record)

theorem found_symm {first second : Option FileRecord}
    (same : Option.Rel FileRecord.Same first second) : Option.Rel FileRecord.Same second first := by
  cases same with
  | none => exact .none
  | some same => exact .some same.symm

theorem found_trans {first second third : Option FileRecord}
    (same : Option.Rel FileRecord.Same first second)
    (later : Option.Rel FileRecord.Same second third) :
    Option.Rel FileRecord.Same first third := by
  cases same with
  | none => exact later
  | some same =>
      cases later with
      | some later => exact .some (same.trans later)

theorem Same.refl (snapshot : Snapshot) : snapshot.Same snapshot :=
  same_iff.2 ⟨.refl _, fun _ => found_refl _⟩

theorem Same.symm {left right : Snapshot} (same : left.Same right) : right.Same left := by
  obtain ⟨directories, agree⟩ := same_iff.1 same
  exact same_iff.2 ⟨directories.symm, fun path => found_symm (agree path)⟩

/-- What is found at a path is a record of that path. -/
def Keyed (snapshot : Snapshot) : Prop :=
  ∀ path record, snapshot.get? path = some record → path.Same record.path

theorem keyed_empty (directory : Path) : (empty directory).Keyed := by
  intro path record found
  simp at found

theorem Keyed.insert {snapshot : Snapshot} (keyed : snapshot.Keyed) (kept : KeptSpelling)
    (record : FileRecord) : (snapshot.insert kept record.path record).Keyed := by
  intro path other found
  rw [get?_insert] at found
  by_cases here : path.Same record.path
  · simp only [here, if_true, Option.some.injEq] at found
    exact found ▸ here
  · simp only [here, if_false] at found
    exact keyed path other found

theorem Keyed.insertAll {snapshot : Snapshot} (keyed : snapshot.Keyed) (kept : KeptSpelling)
    (records : List FileRecord) :
    (records.foldl (fun snapshot record => snapshot.insert kept record.path record)
      snapshot).Keyed := by
  induction records generalizing snapshot with
  | nil => exact keyed
  | cons record rest ih => exact ih (keyed.insert kept record)

theorem keyed_ofRecords (directory : Path) (records : List FileRecord) :
    (ofRecords directory records).Keyed :=
  (keyed_empty directory).insertAll .last records

theorem keyed_capture {view : DirectoryView} {directory : Path} {snapshot : Snapshot}
    (captured : capture view directory = .ok snapshot) : snapshot.Keyed := by
  simp only [capture] at captured
  split at captured
  · simp at captured
  · cases captured
    exact (keyed_empty directory).insertAll .first _

theorem directory_ofRecords (directory : Path) (records : List FileRecord) :
    (ofRecords directory records).directory = directory :=
  directory_insertAll .last records (empty directory)

theorem mem_records_iff {snapshot : Snapshot} (keyed : snapshot.Keyed) {record : FileRecord} :
    record ∈ snapshot.records ↔ snapshot.get? record.path = some record := by
  constructor
  · intro member
    obtain ⟨entry, listed, rfl⟩ := List.mem_map.mp member
    have found : snapshot.get? entry.1 = some entry.2 := snapshot.sorted.lookup_of_mem listed
    have spelled := keyed entry.1 entry.2 found
    rw [← snapshot.get?_eq_of_same spelled]
    exact found
  · intro found
    obtain ⟨key, -, member⟩ := Entries.mem_of_lookup found
    exact List.mem_map.mpr ⟨(key, record), member, rfl⟩

theorem Keyed.entry {snapshot : Snapshot} (keyed : snapshot.Keyed) {entry : Path × FileRecord}
    (member : entry ∈ snapshot.entries) : entry.1.Same entry.2.path :=
  keyed entry.1 entry.2 (snapshot.sorted.lookup_of_mem member)

theorem Keyed.records_at {snapshot : Snapshot} (keyed : snapshot.Keyed) (path : Path) :
    (snapshot.records.filter fun record => path.Same record.path) =
      (snapshot.get? path).toList := by
  have spelled : ∀ entry ∈ snapshot.entries,
      decide (path.Same entry.2.path) = decide (path.Same entry.1) := by
    intro entry member
    have own := keyed.entry member
    exact decide_eq_decide.mpr ⟨fun here => here.trans own.symm, fun here => here.trans own⟩
  rw [records, List.filter_map, get?, ← snapshot.sorted.values_at path]
  exact congrArg (List.map Prod.snd) (List.filter_congr spelled)

theorem Keyed.records_ordered {snapshot : Snapshot} (keyed : snapshot.Keyed) :
    snapshot.records.Pairwise fun first second => first.path.Before second.path := by
  rw [records, List.pairwise_map]
  refine snapshot.sorted.imp_of_mem ?_
  intro first second firstMember secondMember before
  have firstOwn := (keyed.entry firstMember).symm.compare_left second.2.path
  have secondOwn := (keyed.entry secondMember).symm.compare_right first.1
  exact (firstOwn.trans secondOwn).trans before

end Snapshot

end FolderWatch
