import Mathlib.Data.List.Dedup
import FolderWatch.Proofs.Snapshot.Lookup

/-!
A snapshot made of records is an ordered map in which the last record of a path wins. Insertions
under paths that are not there yet only rearrange, and a sorted list is known by what it holds; so a
snapshot is made of its own records again, and the order of records with different paths is no
matter.
-/

namespace FolderWatch

namespace Entries

variable {α : Type} {entries : Entries α} {path : Path} {value : α}

theorem insert_perm (kept : KeptSpelling) (fresh : ∀ entry ∈ entries, ¬path.Same entry.1) :
    (entries.insert kept path value).Perm ((path, value) :: entries) := by
  induction entries with
  | nil => exact .refl _
  | cons head rest ih =>
      have apart := fresh head List.mem_cons_self
      simp only [insert]
      split
      · exact .refl _
      · rename_i equal
        exact absurd (Path.compare_eq_iff_same.1 equal) apart
      · have tail := ih fun entry member => fresh entry (List.mem_cons_of_mem _ member)
        exact (tail.cons head).trans (.swap ..)

/-- With the last spelling kept, an insertion touches no entry but the one that it puts in. -/
theorem mem_insert_last {entry : Path × α} (member : entry ∈ entries.insert .last path value) :
    entry = (path, value) ∨ entry ∈ entries := by
  induction entries with
  | nil => exact .inl (by simpa [insert] using member)
  | cons head rest ih =>
      simp only [insert] at member
      split at member
      · exact (List.mem_cons.1 member).imp id id
      · rcases List.mem_cons.1 member with rfl | later
        · exact .inl rfl
        · exact .inr (List.mem_cons_of_mem _ later)
      · rcases List.mem_cons.1 member with rfl | later
        · exact .inr List.mem_cons_self
        · exact (ih later).imp id (List.mem_cons_of_mem _)

theorem Sorted.eq_of_perm {left right : Entries α} (leftSorted : left.Sorted)
    (rightSorted : right.Sorted) (perm : left.Perm right) : left = right := by
  refine List.Perm.eq_of_pairwise ?_ leftSorted rightSorted perm
  intro first second _ _ before after
  exact absurd (.refl _) (before.trans after).not_same

theorem Sorted.nodup_components (sorted : entries.Sorted) :
    (entries.map fun entry => entry.1.components).Nodup := by
  rw [List.Nodup, List.pairwise_map]
  exact sorted.imp fun before => before.not_same

theorem Sorted.nodup (sorted : entries.Sorted) : entries.Nodup :=
  sorted.nodup_components.of_map _

theorem Sorted.eq_of_mem_iff {left right : Entries α} (leftSorted : left.Sorted)
    (rightSorted : right.Sorted) (members : ∀ entry, entry ∈ left ↔ entry ∈ right) :
    left = right :=
  leftSorted.eq_of_perm rightSorted
    ((List.perm_ext_iff_of_nodup leftSorted.nodup rightSorted.nodup).2 members)

end Entries

namespace FileRecord

/-- A record with the key that it has in a snapshot. -/
def entry (record : FileRecord) : Path × FileRecord := (record.path, record)

/-- The records given for one path, in whatever spelling. -/
def given (path : Path) (records : List FileRecord) : List FileRecord :=
  records.filter fun record => path.Same record.path

/-- The record is the last of those given for a path. -/
def LastGiven (path : Path) (records : List FileRecord) (record : FileRecord) : Prop :=
  ∃ earlier later, records = earlier ++ record :: later ∧ path.Same record.path ∧
    ∀ other ∈ later, ¬path.Same other.path

theorem getLast?_given {path : Path} {records : List FileRecord} {record : FileRecord} :
    (given path records).getLast? = some record ↔ LastGiven path records record := by
  rw [given, List.getLast?_filter, List.find?_eq_some_iff_append]
  simp only [decide_eq_true_eq, Bool.not_eq_true', decide_eq_false_iff_not]
  constructor
  · rintro ⟨here, after, before, split, others⟩
    refine ⟨before.reverse, after.reverse, ?_, here, fun other member => ?_⟩
    · simpa using congrArg List.reverse split
    · exact others other (List.mem_reverse.1 member)
  · rintro ⟨earlier, later, rfl, here, others⟩
    refine ⟨here, later.reverse, earlier.reverse, by simp, fun other member => ?_⟩
    exact others other (List.mem_reverse.1 member)

end FileRecord

namespace Snapshot

variable {snapshot : Snapshot} {records : List FileRecord}

/-- Records under paths that are all new are taken in as they are. -/
theorem insertAll_perm (kept : KeptSpelling)
    (apart : records.Pairwise fun first second => ¬first.path.Same second.path)
    (fresh : ∀ record ∈ records, ∀ entry ∈ snapshot.entries, ¬record.path.Same entry.1) :
    (records.foldl (fun snapshot record => snapshot.insert kept record.path record)
      snapshot).entries.Perm (snapshot.entries ++ records.map FileRecord.entry) := by
  induction records generalizing snapshot with
  | nil => simp
  | cons record rest ih =>
      obtain ⟨headApart, restApart⟩ := List.pairwise_cons.1 apart
      have inserted : (snapshot.insert kept record.path record).entries.Perm
          (record.entry :: snapshot.entries) :=
        Entries.insert_perm kept (fresh record List.mem_cons_self)
      refine (ih restApart ?_).trans ?_
      · intro other member entry listed
        rcases List.mem_cons.1 (inserted.subset listed) with rfl | before
        · exact fun same => headApart other member same.symm
        · exact fresh other (List.mem_cons_of_mem _ member) entry before
      · exact (inserted.append_right _).trans List.perm_middle.symm

theorem entries_perm_of_apart (kept : KeptSpelling) (directory : Path)
    (apart : records.Pairwise fun first second => ¬first.path.Same second.path) :
    (records.foldl (fun snapshot record => snapshot.insert kept record.path record)
      (empty directory)).entries.Perm (records.map FileRecord.entry) :=
  insertAll_perm kept apart fun _ _ _ listed => absurd listed List.not_mem_nil

/-- Every record is kept under exactly the spelling of its own path. -/
def Spelled (snapshot : Snapshot) : Prop := ∀ entry ∈ snapshot.entries, entry.1 = entry.2.path

theorem spelled_ofRecords (directory : Path) (records : List FileRecord) :
    (ofRecords directory records).Spelled := by
  have inserted {snapshot : Snapshot} (spelled : snapshot.Spelled) :
      (records.foldl (fun snapshot record => snapshot.insert .last record.path record)
        snapshot).Spelled := by
    induction records generalizing snapshot with
    | nil => exact spelled
    | cons record rest ih =>
        refine ih fun entry member => ?_
        rcases Entries.mem_insert_last member with rfl | before
        · rfl
        · exact spelled entry before
  exact inserted fun entry member => absurd member List.not_mem_nil

theorem Spelled.entries_eq (spelled : snapshot.Spelled) :
    snapshot.records.map FileRecord.entry = snapshot.entries := by
  rw [records, List.map_map]
  refine (List.map_congr_left fun entry member => ?_).trans (List.map_id _)
  exact Prod.ext (spelled entry member).symm rfl

theorem Spelled.keyed (spelled : snapshot.Spelled) : snapshot.Keyed := by
  intro path record found
  obtain ⟨key, same, member⟩ := Entries.mem_of_lookup found
  exact spelled _ member ▸ same

theorem Spelled.rebuilt (spelled : snapshot.Spelled) :
    ofRecords snapshot.directory snapshot.records = snapshot := by
  have apart : snapshot.records.Pairwise fun first second => ¬first.path.Same second.path :=
    spelled.keyed.records_ordered.imp fun before => before.not_same
  have perm := entries_perm_of_apart .last snapshot.directory apart
  rw [spelled.entries_eq] at perm
  exact eq_of_entries (directory_ofRecords ..)
    (Entries.Sorted.eq_of_perm (sorted _) snapshot.sorted perm)

/-- The last record given for a path is the one found there. -/
theorem get?_ofRecords (directory : Path) (records : List FileRecord) (path : Path) :
    (ofRecords directory records).get? path =
      (FileRecord.given path records).getLast? := by
  have inserted (snapshot : Snapshot) :
      (records.foldl (fun snapshot record => snapshot.insert .last record.path record)
        snapshot).get? path =
        (records.filter fun record => path.Same record.path).getLast?.or (snapshot.get? path) := by
    induction records generalizing snapshot with
    | nil => rfl
    | cons record rest ih =>
        rw [List.foldl_cons, ih, get?_insert]
        by_cases here : path.Same record.path
        · cases later : (rest.filter fun record => path.Same record.path).getLast? <;>
            simp [here, List.getLast?_cons, later]
        · simp [here]
  have found := inserted (empty directory)
  rw [get?_empty, Option.or_none] at found
  exact found

theorem contains_ofRecords (directory : Path) (records : List FileRecord) (path : Path) :
    (ofRecords directory records).contains path =
      records.any fun record => path.Same record.path := by
  rw [Bool.eq_iff_iff, contains, get?_ofRecords, List.getLast?_isSome]
  simp [FileRecord.given]

theorem get?_ofRecords_given (directory : Path) (records : List FileRecord) (path : Path) :
    (ofRecords directory (FileRecord.given path records)).get? path =
      (ofRecords directory records).get? path := by
  rw [get?_ofRecords, get?_ofRecords, FileRecord.given, FileRecord.given, List.filter_filter]
  simp only [Bool.and_self]

theorem mem_of_mem_ofRecords {directory : Path} {records : List FileRecord} {record : FileRecord}
    (member : record ∈ (ofRecords directory records).records) : record ∈ records := by
  have found := (mem_records_iff (keyed_ofRecords directory records)).mp member
  rw [get?_ofRecords] at found
  exact (List.mem_filter.mp (List.mem_of_getLast? found)).1

/-- The keys are the different paths of the records, each of them once. -/
theorem components_perm (directory : Path) (records : List FileRecord) :
    ((ofRecords directory records).entries.map fun entry => entry.1.components).Perm
      (records.map fun record => record.path.components).dedup := by
  have distinct := (ofRecords directory records).sorted.nodup_components
  refine (List.perm_ext_iff_of_nodup distinct (List.nodup_dedup _)).2 fun components => ?_
  rw [List.mem_dedup, List.mem_map, List.mem_map]
  constructor
  · rintro ⟨entry, listed, rfl⟩
    refine ⟨entry.2, mem_of_mem_ofRecords (List.mem_map_of_mem listed), ?_⟩
    rw [spelled_ofRecords directory records entry listed]
  · rintro ⟨record, member, rfl⟩
    have contained := contains_ofRecords directory records record.path
    rw [List.any_eq_true.2 ⟨record, member, decide_eq_true (.refl _)⟩] at contained
    obtain ⟨found, here⟩ := Option.isSome_iff_exists.1 contained
    obtain ⟨key, same, listed⟩ := Entries.mem_of_lookup here
    exact ⟨(key, found), listed, same.symm⟩

/-- An ordered map from paths to records: of several records with one path the last is kept, as it is
spelled. -/
structure LastWins (records : List FileRecord) (snapshot : Snapshot) : Prop where
  ordered : snapshot.records.Pairwise fun first second => first.path.Before second.path
  found : ∀ path record,
    snapshot.get? path = some record ↔ FileRecord.LastGiven path records record
  missing : ∀ path, snapshot.get? path = none ↔ ∀ record ∈ records, ¬path.Same record.path
  contained : ∀ path, snapshot.contains path = true ↔ ∃ record, snapshot.get? path = some record
  counted : snapshot.size = (records.map fun record => record.path.components).dedup.length
  spelled : ∀ entry ∈ snapshot.entries, entry.1 = entry.2.path
  rebuilt : ofRecords snapshot.directory snapshot.records = snapshot

/-- Whatever records a snapshot is made of, in whatever spellings and however often a path comes up,
it keeps the last record of each path, in path order, and is made of its own records again. -/
theorem ofRecords_last_wins (directory : Path) (records : List FileRecord) :
    (ofRecords directory records).directory = directory ∧
      LastWins records (ofRecords directory records) := by
  refine ⟨directory_ofRecords directory records, ?_⟩
  have spelled := spelled_ofRecords directory records
  constructor
  case ordered => exact spelled.keyed.records_ordered
  case found =>
    intro path record
    rw [get?_ofRecords, FileRecord.getLast?_given]
  case missing =>
    intro path
    rw [get?_ofRecords, List.getLast?_eq_none_iff, FileRecord.given, List.filter_eq_nil_iff]
    simp only [decide_eq_true_eq]
  case contained =>
    intro path
    rw [contains, Option.isSome_iff_exists]
  case counted => simpa [size] using (components_perm directory records).length_eq
  case spelled => exact spelled
  case rebuilt => exact spelled.rebuilt

end Snapshot

end FolderWatch
