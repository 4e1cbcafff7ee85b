import FolderWatch.FileRecord

/-!
A change of one file between two snapshots: what was there before and what is there after.
-/

namespace FolderWatch

inductive ChangeKind where
  | created
  | modified
  | deleted
  deriving DecidableEq, Repr, Inhabited

namespace ChangeKind

def all : List ChangeKind := [created, modified, deleted]

def label : ChangeKind → String
  | created => "CREATED"
  | modified => "MODIFIED"
  | deleted => "DELETED"

def letter : ChangeKind → String
  | created => "C"
  | modified => "M"
  | deleted => "D"

end ChangeKind

structure Change where
  kind : ChangeKind
  before : Option FileRecord
  after : Option FileRecord
  deriving DecidableEq, Repr, Inhabited

namespace Change

def created (after : FileRecord) : Change := ⟨.created, none, some after⟩

def deleted (before : FileRecord) : Change := ⟨.deleted, some before, none⟩

def modified (before after : FileRecord) : Change := ⟨.modified, some before, some after⟩

def latest (change : Change) : Option FileRecord := change.after.or change.before

def path (change : Change) : Path := (change.latest.map FileRecord.path).getD ⟨[]⟩

def describe (change : Change) : String :=
  change.kind.label ++ " " ++ change.path.display

def WellFormed (change : Change) : Prop :=
  match change.kind with
  | .created => change.before = none ∧ change.after.isSome
  | .modified => change.before.isSome ∧ change.after.isSome
  | .deleted => change.before.isSome ∧ change.after = none

@[simp] theorem path_created (after : FileRecord) : (created after).path = after.path := rfl

@[simp] theorem path_deleted (before : FileRecord) : (deleted before).path = before.path := rfl

@[simp] theorem path_modified (before after : FileRecord) :
    (modified before after).path = after.path := rfl

end Change

end FolderWatch
