import FolderWatch.Proofs.Snapshot.Lookup
import FolderWatch.Recognizer

/-!
What the built-in recognizers report between two snapshots leads from one to the other and back, in
any order, since changes of one path agree on what is there.
-/

namespace FolderWatch

namespace Snapshot

/-- A created or modified file is there as it was found; a deleted one is gone. -/
def apply (snapshot : Snapshot) (change : Change) : Snapshot :=
  match change.kind, change.after with
  | .deleted, _ => snapshot.erase change.path
  | _, some record => snapshot.insert .last record.path record
  | _, none => snapshot

/-- A created file is gone; a modified or deleted one is there as it was. -/
def revert (snapshot : Snapshot) (change : Change) : Snapshot :=
  match change.kind, change.before with
  | .created, _ => snapshot.erase change.path
  | _, some record => snapshot.insert .last record.path record
  | _, none => snapshot

def replay (snapshot : Snapshot) (changes : List Change) : Snapshot :=
  changes.foldl apply snapshot

def undo (snapshot : Snapshot) (changes : List Change) : Snapshot :=
  changes.foldl revert snapshot

/-- An edit that gives a change's path a new content and touches no other path. -/
def EditsOne (edit : Snapshot → Change → Snapshot) (content : Change → Option FileRecord)
    (change : Change) : Prop :=
  ∀ snapshot path, (edit snapshot change).get? path =
    if path.Same change.path then content change else snapshot.get? path

section Edits

variable {edit : Snapshot → Change → Snapshot} {content : Change → Option FileRecord}
  {changes : List Change} {snapshot target : Snapshot}

theorem get?_edits_elsewhere (edits : ∀ change ∈ changes, EditsOne edit content change)
    {path : Path} (apart : ∀ change ∈ changes, ¬ path.Same change.path) :
    (changes.foldl edit snapshot).get? path = snapshot.get? path := by
  induction changes generalizing snapshot with
  | nil => rfl
  | cons change rest ih =>
      have first := edits change (by simp) snapshot path
      rw [if_neg (apart change (by simp))] at first
      rw [List.foldl_cons, ← first]
      refine ih ?_ ?_
      · intro other member
        exact edits other (by simp [member])
      · intro other member
        exact apart other (by simp [member])

/-- Edits of one path agree on its content, so it does not matter which of them comes last. -/
theorem get?_edits (edits : ∀ change ∈ changes, EditsOne edit content change)
    (agree : ∀ change ∈ changes, target.get? change.path = content change)
    {change : Change} (member : change ∈ changes) {path : Path} (here : path.Same change.path) :
    (changes.foldl edit snapshot).get? path = target.get? path := by
  induction changes generalizing snapshot change with
  | nil => simp at member
  | cons first rest ih =>
      have restEdits : ∀ other ∈ rest, EditsOne edit content other := by
        intro other later
        exact edits other (by simp [later])
      have restAgree : ∀ other ∈ rest, target.get? other.path = content other := by
        intro other later
        exact agree other (by simp [later])
      by_cases repeated : ∃ other ∈ rest, path.Same other.path
      · obtain ⟨other, later, again⟩ := repeated
        exact ih restEdits restAgree later again
      · have apart : ∀ other ∈ rest, ¬ path.Same other.path := by
          intro other later same
          exact repeated ⟨other, later, same⟩
        have isFirst : change = first := by
          rcases List.mem_cons.mp member with same | later
          · exact same
          · exact absurd here (apart change later)
        subst isFirst
        have edited := edits change (by simp) snapshot path
        have held := agree change (by simp)
        rw [List.foldl_cons, get?_edits_elsewhere restEdits apart, edited, if_pos here, ← held,
          target.get?_eq_of_same here]

theorem same_of_edits (edits : ∀ change ∈ changes, EditsOne edit content change)
    (agree : ∀ change ∈ changes, target.get? change.path = content change)
    (elsewhere : ∀ path, (∀ change ∈ changes, ¬ path.Same change.path) →
      Option.Rel FileRecord.Same (snapshot.get? path) (target.get? path))
    (directories : (changes.foldl edit snapshot).directory.Same target.directory) :
    (changes.foldl edit snapshot).Same target := by
  apply same_iff.2
  refine ⟨directories, fun path => ?_⟩
  by_cases touched : ∃ change ∈ changes, path.Same change.path
  · obtain ⟨change, member, here⟩ := touched
    rw [get?_edits edits agree member here]
    exact found_refl _
  · have apart : ∀ change ∈ changes, ¬ path.Same change.path := by
      intro change member same
      exact touched ⟨change, member, same⟩
    rw [get?_edits_elsewhere edits apart]
    exact elsewhere path apart

end Edits

theorem directory_replay (snapshot : Snapshot) (changes : List Change) :
    (snapshot.replay changes).directory = snapshot.directory := by
  induction changes generalizing snapshot with
  | nil => rfl
  | cons change rest ih =>
      have first : (snapshot.apply change).directory = snapshot.directory := by
        unfold apply
        split <;> rfl
      exact (ih (snapshot.apply change)).trans first

theorem directory_undo (snapshot : Snapshot) (changes : List Change) :
    (snapshot.undo changes).directory = snapshot.directory := by
  induction changes generalizing snapshot with
  | nil => rfl
  | cons change rest ih =>
      have first : (snapshot.revert change).directory = snapshot.directory := by
        unfold revert
        split <;> rfl
      exact (ih (snapshot.revert change)).trans first

end Snapshot

/-- The change says what two snapshots hold at its path. -/
structure Change.Between (before after : Snapshot) (change : Change) : Prop where
  wellFormed : change.WellFormed
  was : before.get? change.path = change.before
  is : after.get? change.path = change.after

namespace Change

variable {before after : Snapshot} {change : Change}

theorem Between.edits_apply (between : change.Between before after) :
    Snapshot.EditsOne Snapshot.apply Change.after change := by
  intro snapshot path
  have wellFormed := between.wellFormed
  obtain ⟨kind, old, new⟩ := change
  cases kind with
  | created | modified =>
      obtain ⟨-, present⟩ := wellFormed
      obtain ⟨record, rfl⟩ := Option.isSome_iff_exists.mp present
      exact Snapshot.get?_insert ..
  | deleted =>
      obtain ⟨-, rfl⟩ := wellFormed
      exact Snapshot.get?_erase ..

theorem Between.edits_revert (between : change.Between before after) (keyed : before.Keyed) :
    Snapshot.EditsOne Snapshot.revert Change.before change := by
  intro snapshot path
  have wellFormed := between.wellFormed
  have paths : ∀ record, change.before = some record →
      (path.Same record.path ↔ path.Same change.path) := by
    intro record held
    have spelled := keyed change.path record (between.was.trans held)
    constructor
    · intro here
      exact here.trans spelled.symm
    · intro here
      exact here.trans spelled
  obtain ⟨kind, old, new⟩ := change
  cases kind with
  | created =>
      obtain ⟨rfl, -⟩ := wellFormed
      exact Snapshot.get?_erase ..
  | modified | deleted =>
      obtain ⟨present, -⟩ := wellFormed
      obtain ⟨record, rfl⟩ := Option.isSome_iff_exists.mp present
      simp only [Snapshot.revert, Snapshot.get?_insert, paths record rfl]

end Change

namespace Recognizer

/-- All that the built-in recognizers report between two snapshots. -/
def patch (before after : Snapshot) : List Change :=
  all.flatMap fun recognizer => recognizer.compare before after

variable {before after : Snapshot}

theorem mem_createdChanges {change : Change} :
    change ∈ createdChanges before after ↔
      ∃ record ∈ after.records, before.get? record.path = none ∧ .created record = change := by
  simp [createdChanges, Snapshot.contains, and_assoc]

theorem mem_deletedChanges {change : Change} :
    change ∈ deletedChanges before after ↔
      ∃ record ∈ before.records, after.get? record.path = none ∧ .deleted record = change := by
  simp [deletedChanges, Snapshot.contains, and_assoc]

theorem mem_changedChanges {change : Change} :
    change ∈ changedChanges before after ↔ ∃ record ∈ after.records, ∃ old,
      before.get? record.path = some old ∧ old.Differs record ∧ .modified old record = change := by
  simp [changedChanges, Option.bind_eq_some_iff]

theorem between_of_mem_changes {recognizer : Recognizer} {change : Change}
    (beforeKeyed : before.Keyed) (afterKeyed : after.Keyed)
    (member : change ∈ recognizer.changes before after) : change.Between before after := by
  cases recognizer with
  | created =>
      obtain ⟨record, listed, missing, rfl⟩ := mem_createdChanges.mp member
      exact ⟨⟨rfl, rfl⟩, missing, (Snapshot.mem_records_iff afterKeyed).mp listed⟩
  | deleted =>
      obtain ⟨record, listed, missing, rfl⟩ := mem_deletedChanges.mp member
      exact ⟨⟨rfl, rfl⟩, (Snapshot.mem_records_iff beforeKeyed).mp listed, missing⟩
  | changed =>
      obtain ⟨record, listed, old, held, -, rfl⟩ := mem_changedChanges.mp member
      exact ⟨⟨rfl, rfl⟩, held, (Snapshot.mem_records_iff afterKeyed).mp listed⟩

theorem mem_changes_of_mem_compare {recognizer : Recognizer} {change : Change}
    (member : change ∈ recognizer.compare before after) :
    change ∈ recognizer.changes before after := by
  unfold compare at member
  split at member
  · exact member
  · simp at member

theorem between_of_mem_patch {change : Change} (beforeKeyed : before.Keyed)
    (afterKeyed : after.Keyed) (member : change ∈ patch before after) :
    change.Between before after := by
  obtain ⟨recognizer, -, reported⟩ := List.mem_flatMap.mp member
  exact between_of_mem_changes beforeKeyed afterKeyed (mem_changes_of_mem_compare reported)

theorem mem_patch_of_mem_changes (directories : before.directory.Same after.directory)
    (recognizer : Recognizer) {change : Change}
    (member : change ∈ recognizer.changes before after) : change ∈ patch before after := by
  apply List.mem_flatMap.mpr
  refine ⟨recognizer, ?_, ?_⟩
  · cases recognizer <;> decide
  · simpa only [compare, directories, if_true] using member

/-- At a path that no change is about, both snapshots hold the same. -/
theorem unchanged (directories : before.directory.Same after.directory)
    (beforeKeyed : before.Keyed) (afterKeyed : after.Keyed) {path : Path}
    (apart : ∀ change ∈ patch before after, ¬ path.Same change.path) :
    Option.Rel FileRecord.Same (before.get? path) (after.get? path) := by
  cases held : before.get? path with
  | none =>
      cases found : after.get? path with
      | none => exact .none
      | some record =>
          have spelled := afterKeyed path record found
          have listed : record ∈ after.records := by
            rw [Snapshot.mem_records_iff afterKeyed, ← after.get?_eq_of_same spelled, found]
          have missing : before.get? record.path = none := by
            rw [← before.get?_eq_of_same spelled, held]
          have reported : Change.created record ∈ patch before after := by
            apply mem_patch_of_mem_changes directories .created
            exact mem_createdChanges.mpr ⟨record, listed, missing, rfl⟩
          exact absurd spelled (apart _ reported)
  | some old =>
      have oldSpelled := beforeKeyed path old held
      cases found : after.get? path with
      | none =>
          have listed : old ∈ before.records := by
            rw [Snapshot.mem_records_iff beforeKeyed, ← before.get?_eq_of_same oldSpelled, held]
          have missing : after.get? old.path = none := by
            rw [← after.get?_eq_of_same oldSpelled, found]
          have reported : Change.deleted old ∈ patch before after := by
            apply mem_patch_of_mem_changes directories .deleted
            exact mem_deletedChanges.mpr ⟨old, listed, missing, rfl⟩
          exact absurd oldSpelled (apart _ reported)
      | some new =>
          have newSpelled := afterKeyed path new found
          have listed : new ∈ after.records := by
            rw [Snapshot.mem_records_iff afterKeyed, ← after.get?_eq_of_same newSpelled, found]
          have was : before.get? new.path = some old := by
            rw [← before.get?_eq_of_same newSpelled, held]
          by_cases differs : old.Differs new
          · have reported : Change.modified old new ∈ patch before after := by
              apply mem_patch_of_mem_changes directories .changed
              exact mem_changedChanges.mpr ⟨new, listed, old, was, differs, rfl⟩
            exact absurd newSpelled (apart _ reported)
          · have paths := oldSpelled.symm.trans newSpelled
            exact .some ((FileRecord.same_iff_not_differs paths).mpr differs)

/-- Whatever order the changes come in and however often, they lead to the later snapshot. -/
theorem replay_patch {start : Snapshot} {changes : List Change} (same : start.Same before)
    (directories : before.directory.Same after.directory) (beforeKeyed : before.Keyed)
    (afterKeyed : after.Keyed) (all : ∀ change, change ∈ changes ↔ change ∈ patch before after) :
    (start.replay changes).Same after := by
  obtain ⟨startDirectory, startFound⟩ := Snapshot.same_iff.mp same
  have between : ∀ change ∈ changes, change.Between before after := by
    intro change member
    exact between_of_mem_patch beforeKeyed afterKeyed ((all change).mp member)
  apply Snapshot.same_of_edits
  · intro change member
    exact (between change member).edits_apply
  · intro change member
    exact (between change member).is
  · intro path apart
    have untouched : ∀ change ∈ patch before after, ¬ path.Same change.path := by
      intro change member
      exact apart change ((all change).mpr member)
    exact Snapshot.found_trans (startFound path)
      (unchanged directories beforeKeyed afterKeyed untouched)
  · have kept := Snapshot.directory_replay start changes
    rw [Snapshot.replay] at kept
    rw [kept]
    exact startDirectory.trans directories

theorem undo_patch {changes : List Change} (directories : before.directory.Same after.directory)
    (beforeKeyed : before.Keyed) (afterKeyed : after.Keyed)
    (all : ∀ change, change ∈ changes ↔ change ∈ patch before after) :
    (after.undo changes).Same before := by
  have between : ∀ change ∈ changes, change.Between before after := by
    intro change member
    exact between_of_mem_patch beforeKeyed afterKeyed ((all change).mp member)
  apply Snapshot.same_of_edits
  · intro change member
    exact (between change member).edits_revert beforeKeyed
  · intro change member
    exact (between change member).was
  · intro path apart
    have untouched : ∀ change ∈ patch before after, ¬ path.Same change.path := by
      intro change member
      exact apart change ((all change).mpr member)
    exact Snapshot.found_symm (unchanged directories beforeKeyed afterKeyed untouched)
  · have kept := Snapshot.directory_undo after changes
    rw [Snapshot.undo] at kept
    rw [kept]
    exact directories.symm

/-- The changes between two snapshots of one directory are all there is to tell them apart, in any
order: each says what the two hold at its path. -/
theorem patch_complete {directory spelling : Path} (directories : directory.Same spelling)
    (old new : List FileRecord) {changes : List Change}
    (order : changes.Perm
      (patch (.ofRecords directory old) (.ofRecords spelling new))) :
    ((Snapshot.ofRecords directory old).replay changes).Same (.ofRecords spelling new) ∧
      ((Snapshot.ofRecords spelling new).undo changes).Same (.ofRecords directory old) ∧
      ∀ change ∈ changes,
        change.Between (.ofRecords directory old) (.ofRecords spelling new) := by
  have beforeKeyed := Snapshot.keyed_ofRecords directory old
  have afterKeyed := Snapshot.keyed_ofRecords spelling new
  have sameDirectory : (Snapshot.ofRecords directory old).directory.Same
      (Snapshot.ofRecords spelling new).directory := by
    rw [Snapshot.directory_ofRecords, Snapshot.directory_ofRecords]
    exact directories
  have all : ∀ change, change ∈ changes ↔
      change ∈ patch (.ofRecords directory old) (.ofRecords spelling new) := fun _ => order.mem_iff
  refine ⟨?_, ?_, ?_⟩
  · exact replay_patch (.refl _) sameDirectory beforeKeyed afterKeyed all
  · exact undo_patch sameDirectory beforeKeyed afterKeyed all
  · intro change member
    exact between_of_mem_patch beforeKeyed afterKeyed ((all change).mp member)

/-- One file goes, one comes, one grows and one is only respelled. -/
theorem patch_complete_reversed :
    let before := Snapshot.ofRecords (.ofString "/d")
      [⟨.ofString "/d/a", 1, 1⟩, ⟨.ofString "/d//b", 2, 2⟩, ⟨.ofString "/d/c", 3, 3⟩]
    let after := Snapshot.ofRecords (.ofString "/d/")
      [⟨.ofString "/d/b", 2, 2⟩, ⟨.ofString "/d/./c", 3, 3⟩, ⟨.ofString "/d/e", 0, 4⟩,
        ⟨.ofString "/d/b/", 5, 2⟩]
    (Path.ofString "/d").Same (.ofString "/d/") ∧ (patch before after).length = 3 ∧
      (patch before after).reverse.Perm (patch before after) ∧
      (before.replay (patch before after).reverse).Same after ∧
      (after.undo (patch before after).reverse).Same before := by
  have directories : (Path.ofString "/d").Same (.ofString "/d/") := by decide +kernel
  have reversed := patch_complete directories
    [⟨.ofString "/d/a", 1, 1⟩, ⟨.ofString "/d//b", 2, 2⟩, ⟨.ofString "/d/c", 3, 3⟩]
    [⟨.ofString "/d/b", 2, 2⟩, ⟨.ofString "/d/./c", 3, 3⟩, ⟨.ofString "/d/e", 0, 4⟩,
      ⟨.ofString "/d/b/", 5, 2⟩] (List.reverse_perm _)
  exact ⟨directories, by decide +kernel, List.reverse_perm _, reversed.1, reversed.2.1⟩

end Recognizer

end FolderWatch
