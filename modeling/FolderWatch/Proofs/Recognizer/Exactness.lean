import FolderWatch.Proofs.Recognizer.Patch

/-!
Between two snapshots of one directory every path has the one change that it is due, or none, and
each recognizer reports its changes in path order.
-/

namespace FolderWatch

namespace Snapshot

/-- The ways to make a snapshot that key every record by its own path. -/
inductive Made : Snapshot → Prop
  | ofRecords (directory : Path) (records : List FileRecord) : Made (.ofRecords directory records)
  | empty (directory : Path) : Made (.empty directory)
  | captured {view : DirectoryView} {directory : Path} {snapshot : Snapshot}
      (captured : capture view directory = .ok snapshot) : Made snapshot

variable {snapshot : Snapshot}

theorem Made.keyed (made : snapshot.Made) : snapshot.Keyed := by
  cases made with
  | ofRecords directory records => exact keyed_ofRecords directory records
  | empty directory => exact keyed_empty directory
  | captured captured => exact keyed_capture captured

end Snapshot

/-- The change due at a path, from what is there before and after. -/
def Change.due : Option FileRecord → Option FileRecord → Option Change
  | none, none => none
  | none, some new => some (.created new)
  | some old, none => some (.deleted old)
  | some old, some new => if old.Differs new then some (.modified old new) else none

namespace Recognizer

variable {before after : Snapshot}

/-- The snapshot whose records a recognizer goes through. -/
def searched : Recognizer → Snapshot → Snapshot → Snapshot
  | deleted, before, _ => before
  | _, _, after => after

/-- What a recognizer reports of one record of the snapshot it goes through. -/
def report? (before after : Snapshot) : Recognizer → FileRecord → Option Change
  | created, record => if before.contains record.path then none else some (.created record)
  | deleted, record => if after.contains record.path then none else some (.deleted record)
  | changed, record => do
      let old ← before.get? record.path
      if old.Differs record then some (.modified old record) else none

theorem changes_eq (recognizer : Recognizer) :
    recognizer.changes before after =
      (recognizer.searched before after).records.filterMap (recognizer.report? before after) := by
  have filtered {keep : FileRecord → Bool} {made : FileRecord → Change} (found : List FileRecord) :
      (found.filter fun record => !keep record).map made =
        found.filterMap fun record => if keep record then none else some (made record) := by
    induction found with
    | nil => rfl
    | cons record rest ih => cases kept : keep record <;> simp [kept, ih]
  cases recognizer with
  | created | deleted => exact filtered _
  | changed => rfl

theorem path_of_report? {recognizer : Recognizer} {record : FileRecord} {change : Change}
    (reported : recognizer.report? before after record = some change) :
    change.path = record.path := by
  cases recognizer with
  | created | deleted =>
      simp only [report?] at reported
      split at reported <;> cases reported
      rfl
  | changed =>
      simp only [report?, Option.bind_eq_bind, Option.bind_eq_some_iff] at reported
      obtain ⟨old, -, reported⟩ := reported
      split at reported <;> cases reported
      rfl

/-- The changes at one path come from the one record found there, if any. -/
theorem changes_at {recognizer : Recognizer}
    (keyed : (recognizer.searched before after).Keyed) (path : Path) :
    ((recognizer.changes before after).filter fun change => path.Same change.path) =
      (((recognizer.searched before after).get? path).bind
        (recognizer.report? before after)).toList := by
  have narrowed : ∀ record, (recognizer.report? before after record).filter
      (fun change => path.Same change.path) =
        if path.Same record.path then recognizer.report? before after record else none := by
    intro record
    cases reported : recognizer.report? before after record with
    | none => simp
    | some change => by_cases here : path.Same record.path <;> simp [path_of_report? reported, here]
  calc ((recognizer.changes before after).filter fun change => path.Same change.path)
      = (recognizer.searched before after).records.filterMap fun record =>
          if path.Same record.path then recognizer.report? before after record else none := by
        rw [changes_eq, List.filter_filterMap]
        simp only [narrowed]
    _ = ((recognizer.searched before after).records.filter fun record =>
          path.Same record.path).filterMap (recognizer.report? before after) := by
        simp only [List.filterMap_filter, decide_eq_true_eq]
    _ = (((recognizer.searched before after).get? path).bind
          (recognizer.report? before after)).toList := by
        rw [keyed.records_at]
        cases (recognizer.searched before after).get? path with
        | none => rfl
        | some record => cases reported : recognizer.report? before after record <;> simp [reported]

end Recognizer

end FolderWatch
