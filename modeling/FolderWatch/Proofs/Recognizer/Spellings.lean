import Mathlib.Data.List.Forall2
import FolderWatch.CommandLine
import FolderWatch.Proofs.Recognizer.Exactness
import FolderWatch.Proofs.Snapshot.Records

/-!
How paths are spelled makes no difference to a snapshot, to what is found in it, to what the
recognizers report or to which files a command line watches; and what is found or reported at a
path comes from the records of that path alone.
-/

namespace FolderWatch

namespace Path

variable {path path' : Path}

theorem Same.extension?_eq (same : path.Same path') : path.extension? = path'.extension? := by
  have names : path.fileName? = path'.fileName? := by
    unfold fileName?
    rw [show path.components = path'.components from same]
  unfold extension?
  rw [names]

theorem Same.watches_eq (same : path.Same path') (line : CommandLine) :
    line.watches path = line.watches path' := by
  unfold CommandLine.watches
  rw [same.extension?_eq]

end Path

/-- Equal up to the spelling of paths. -/
structure Change.Same (left right : Change) : Prop where
  kind : left.kind = right.kind
  before : Option.Rel FileRecord.Same left.before right.before
  after : Option.Rel FileRecord.Same left.after right.after

namespace Snapshot

variable {left right : Snapshot} {record record' : FileRecord} {path path' : Path}

theorem Same.get? (same : left.Same right) (paths : path.Same path') :
    Option.Rel FileRecord.Same (left.get? path) (right.get? path') := by
  rw [← right.get?_eq_of_same paths]
  exact (same_iff.mp same).2 path

theorem contains_eq_of_found {left right : Snapshot}
    (found : Option.Rel FileRecord.Same (left.get? path) (right.get? path')) :
    left.contains path = right.contains path' := by
  unfold contains
  generalize left.get? path = leftFound, right.get? path' = rightFound at found
  cases found <;> rfl

theorem sameEntries_records {left right : Entries FileRecord} (same : SameEntries left right) :
    List.Forall₂ FileRecord.Same (left.map Prod.snd) (right.map Prod.snd) := by
  induction left generalizing right with
  | nil =>
      cases right with
      | nil => exact .nil
      | cons other more => exact same.elim
  | cons head rest ih =>
      cases right with
      | nil => exact same.elim
      | cons other more =>
          obtain ⟨-, records, tails⟩ := same
          exact .cons records (ih tails)

theorem Same.records (same : left.Same right) :
    List.Forall₂ FileRecord.Same left.records right.records :=
  sameEntries_records same.2

theorem Same.insert (same : left.Same right) (records : record.Same record')
    (kept : KeptSpelling) :
    (left.insert kept record.path record).Same (right.insert kept record'.path record') := by
  obtain ⟨directories, agree⟩ := same_iff.mp same
  refine same_iff.mpr ⟨directories, fun path => ?_⟩
  have spelled : path.Same record.path ↔ path.Same record'.path := by
    constructor
    · intro here
      exact here.trans records.1
    · intro here
      exact here.trans records.1.symm
  rw [get?_insert, get?_insert]
  by_cases here : path.Same record'.path
  · simpa [spelled, here] using records
  · simpa [spelled, here] using agree path

theorem Same.ofRecords {directory directory' : Path} {records records' : List FileRecord}
    (directories : directory.Same directory')
    (same : List.Forall₂ FileRecord.Same records records') :
    (ofRecords directory records).Same (.ofRecords directory' records') := by
  have inserted {left right : Snapshot} (start : left.Same right) :
      (records.foldl (fun snapshot record => snapshot.insert .last record.path record) left).Same
        (records'.foldl (fun snapshot record => snapshot.insert .last record.path record)
          right) := by
    induction same generalizing left right with
    | nil => exact start
    | cons first _ ih => exact ih (start.insert first .last)
  exact inserted ⟨directories, trivial⟩

end Snapshot

namespace Recognizer

variable {before before' after after' : Snapshot} {record record' : FileRecord}

theorem report?_same (befores : before.Same before') (afters : after.Same after')
    (recognizer : Recognizer) (records : record.Same record') :
    Option.Rel Change.Same (recognizer.report? before after record)
      (recognizer.report? before' after' record') := by
  have was := befores.get? records.1
  have found := afters.get? records.1
  cases recognizer with
  | created =>
      simp only [report?, Snapshot.contains_eq_of_found was]
      split
      · exact .none
      · exact .some ⟨rfl, .none, .some records⟩
  | deleted =>
      simp only [report?, Snapshot.contains_eq_of_found found]
      split
      · exact .none
      · exact .some ⟨rfl, .some records, .none⟩
  | changed =>
      simp only [report?]
      generalize before.get? record.path = old, before'.get? record'.path = old' at was
      cases was with
      | none => exact .none
      | @some old old' olds =>
          have differ : old.Differs record ↔ old'.Differs record' := by
            simp only [FileRecord.Differs, olds.2.1, olds.2.2, records.2.1, records.2.2]
          simp only [Option.bind_eq_bind, Option.bind_some, differ]
          split
          · exact .some ⟨rfl, .some olds, .some records⟩
          · exact .none

theorem compare_same (befores : before.Same before') (afters : after.Same after')
    (recognizer : Recognizer) :
    List.Forall₂ Change.Same (recognizer.compare before after)
      (recognizer.compare before' after') := by
  have directories : before.directory.Same after.directory ↔
      before'.directory.Same after'.directory := by
    constructor
    · intro same
      exact (befores.1.symm.trans same).trans afters.1
    · intro same
      exact (befores.1.trans same).trans afters.1.symm
  have searchedSame : (recognizer.searched before after).Same
      (recognizer.searched before' after') := by
    cases recognizer with
    | created | changed => exact afters
    | deleted => exact befores
  unfold compare
  rw [changes_eq, changes_eq]
  by_cases same : before'.directory.Same after'.directory
  · simp only [directories, same, if_true]
    refine List.rel_filterMap ?_ searchedSame.records
    intro record record' records
    exact report?_same befores afters recognizer records
  · simp only [directories, same, if_false]
    exact .nil

theorem report?_congr (was : before.get? record.path = before'.get? record.path)
    (found : after.get? record.path = after'.get? record.path) (recognizer : Recognizer) :
    recognizer.report? before after record = recognizer.report? before' after' record := by
  cases recognizer <;> simp only [report?, Snapshot.contains, was, found] <;> rfl

/-- What is reported at a path depends on what the two snapshots hold there. -/
theorem changes_at_congr {recognizer : Recognizer} {path : Path}
    (keyed : (recognizer.searched before after).Keyed)
    (keyed' : (recognizer.searched before' after').Keyed)
    (was : before.get? path = before'.get? path) (found : after.get? path = after'.get? path) :
    ((recognizer.changes before after).filter fun change => path.Same change.path) =
      (recognizer.changes before' after').filter fun change => path.Same change.path := by
  have searchedFound : (recognizer.searched before after).get? path =
      (recognizer.searched before' after').get? path := by
    cases recognizer with
    | created | changed => exact found
    | deleted => exact was
  rw [changes_at keyed, changes_at keyed', searchedFound]
  congr 1
  refine Option.bind_congr fun record held => ?_
  have spelled := keyed' path record held
  apply report?_congr
  · rw [← before.get?_eq_of_same spelled, ← before'.get?_eq_of_same spelled, was]
  · rw [← after.get?_eq_of_same spelled, ← after'.get?_eq_of_same spelled, found]

section Given

variable (oldDirectory newDirectory : Path) (old new : List FileRecord)

theorem keyed_searched_ofRecords (recognizer : Recognizer) :
    (recognizer.searched (.ofRecords oldDirectory old) (.ofRecords newDirectory new)).Keyed := by
  cases recognizer with
  | created | changed => exact Snapshot.keyed_ofRecords newDirectory new
  | deleted => exact Snapshot.keyed_ofRecords oldDirectory old

theorem path_of_mem_changes_ofRecords {recognizer : Recognizer} {change : Change}
    (member : change ∈ recognizer.changes (.ofRecords oldDirectory old)
      (.ofRecords newDirectory new)) :
    ∃ record, (record ∈ old ∨ record ∈ new) ∧ change.path = record.path := by
  rw [changes_eq] at member
  obtain ⟨record, listed, made⟩ := List.mem_filterMap.mp member
  refine ⟨record, ?_, path_of_report? made⟩
  cases recognizer with
  | created | changed => exact .inr (Snapshot.mem_of_mem_ofRecords listed)
  | deleted => exact .inl (Snapshot.mem_of_mem_ofRecords listed)

/-- What is reported at a path is what would be reported if no other path had a record. -/
theorem compare_given (path : Path) (recognizer : Recognizer) :
    ((recognizer.compare (.ofRecords oldDirectory old) (.ofRecords newDirectory new)).filter
        fun change => path.Same change.path) =
      recognizer.compare (.ofRecords oldDirectory (FileRecord.given path old))
        (.ofRecords newDirectory (FileRecord.given path new)) := by
  have alone : ∀ change ∈ recognizer.changes
      (.ofRecords oldDirectory (FileRecord.given path old))
      (.ofRecords newDirectory (FileRecord.given path new)), path.Same change.path := by
    intro change member
    obtain ⟨record, listed, spelled⟩ := path_of_mem_changes_ofRecords _ _ _ _ member
    rw [spelled]
    simp only [FileRecord.given, List.mem_filter, decide_eq_true_eq] at listed
    rcases listed with ⟨-, here⟩ | ⟨-, here⟩ <;> exact here
  unfold compare
  simp only [Snapshot.directory_ofRecords]
  split
  · rw [changes_at_congr (keyed_searched_ofRecords _ _ _ _ _)
      (keyed_searched_ofRecords _ _ _ _ _)
      (Snapshot.get?_ofRecords_given oldDirectory old path).symm
      (Snapshot.get?_ofRecords_given newDirectory new path).symm]
    exact List.filter_eq_self.mpr fun change member => decide_eq_true (alone change member)
  · rfl

end Given

/-- Two runs on the same files, spelled differently, cannot be told apart. Files whose paths differ
are: each path finds the last of its own records, and what is reported there is what would be if no
other path had a record. -/
theorem spelling_indifferent {oldDirectory oldDirectory' newDirectory newDirectory' : Path}
    {old old' new new' : List FileRecord} {path path' : Path}
    (oldDirectories : oldDirectory.Same oldDirectory')
    (newDirectories : newDirectory.Same newDirectory')
    (olds : List.Forall₂ FileRecord.Same old old') (news : List.Forall₂ FileRecord.Same new new')
    (paths : path.Same path') :
    let before := Snapshot.ofRecords oldDirectory old
    let before' := Snapshot.ofRecords oldDirectory' old'
    let after := Snapshot.ofRecords newDirectory new
    let after' := Snapshot.ofRecords newDirectory' new'
    (before.Same before' ∧ Option.Rel FileRecord.Same (before.get? path) (before'.get? path') ∧
      before.contains path = before'.contains path') ∧
    (∀ recognizer, List.Forall₂ Change.Same (compare recognizer before after)
      (compare recognizer before' after')) ∧
    (∀ line : CommandLine, line.watches path = line.watches path') ∧
    (before.get? path = (FileRecord.given path old).getLast? ∧
      before.contains path = old.any fun record => path.Same record.path) ∧
    ∀ recognizer, ((compare recognizer before after).filter fun change => path.Same change.path) =
      compare recognizer (.ofRecords oldDirectory (FileRecord.given path old))
        (.ofRecords newDirectory (FileRecord.given path new)) := by
  have befores := Snapshot.Same.ofRecords oldDirectories olds
  have afters := Snapshot.Same.ofRecords newDirectories news
  have found := befores.get? paths
  refine ⟨⟨befores, found, ?_⟩, ?_, ?_, ⟨?_, ?_⟩, ?_⟩
  · exact Snapshot.contains_eq_of_found found
  · exact compare_same befores afters
  · exact paths.watches_eq
  · exact Snapshot.get?_ofRecords oldDirectory old path
  · exact Snapshot.contains_ofRecords oldDirectory old path
  · exact compare_given oldDirectory newDirectory old new path

/-- A leading `.` and `..` are components, a trailing slash and an inner `.` are not. -/
theorem spelling_indifferent_dots :
    let old := [⟨.ofString "./d/a.rs", 1, 1⟩, ⟨.ofString "d/a.rs", 2, 2⟩]
    let old' := [⟨.ofString ".//d/./a.rs/", 1, 1⟩, ⟨.ofString "d//a.rs", 2, 2⟩]
    let new := [⟨.ofString "d/a.rs", 3, 2⟩, ⟨.ofString "d/../a.rs", 4, 4⟩]
    let new' := [⟨.ofString "d/./a.rs", 3, 2⟩, ⟨.ofString "d/..//a.rs", 4, 4⟩]
    ((Path.ofString "d").Same (.ofString "d/") ∧ List.Forall₂ FileRecord.Same old old' ∧
      List.Forall₂ FileRecord.Same new new' ∧
      (Path.ofString "d/a.rs").Same (.ofString "d/a.rs/.")) ∧
    (Snapshot.ofRecords (.ofString "d") old).Same (.ofRecords (.ofString "d/") old') ∧
    List.Forall₂ Change.Same
      (compare .changed (.ofRecords (.ofString "d") old) (.ofRecords (.ofString "d") new))
      (compare .changed (.ofRecords (.ofString "d/") old') (.ofRecords (.ofString "d/") new')) ∧
    (compare .changed (.ofRecords (.ofString "d") old) (.ofRecords (.ofString "d") new)).length =
      1 := by
  have directories : (Path.ofString "d").Same (.ofString "d/") := by decide +kernel
  have olds : List.Forall₂ FileRecord.Same
      [⟨.ofString "./d/a.rs", 1, 1⟩, ⟨.ofString "d/a.rs", 2, 2⟩]
      [⟨.ofString ".//d/./a.rs/", 1, 1⟩, ⟨.ofString "d//a.rs", 2, 2⟩] :=
    .cons (by decide +kernel) (.cons (by decide +kernel) .nil)
  have news : List.Forall₂ FileRecord.Same
      [⟨.ofString "d/a.rs", 3, 2⟩, ⟨.ofString "d/../a.rs", 4, 4⟩]
      [⟨.ofString "d/./a.rs", 3, 2⟩, ⟨.ofString "d/..//a.rs", 4, 4⟩] :=
    .cons (by decide +kernel) (.cons (by decide +kernel) .nil)
  have paths : (Path.ofString "d/a.rs").Same (.ofString "d/a.rs/.") := by decide +kernel
  have indifferent := spelling_indifferent directories directories olds news paths
  exact ⟨⟨directories, olds, news, paths⟩, indifferent.1.1, indifferent.2.1 .changed,
    by decide +kernel⟩

end Recognizer

end FolderWatch
