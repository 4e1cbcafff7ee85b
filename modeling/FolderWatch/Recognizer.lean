import FolderWatch.Snapshot
import FolderWatch.Change
import FolderWatch.LogLine

/-!
The recognizers compare two snapshots of one directory. `created` and `deleted` report the files
that only one of them holds, `changed` those that both hold with another length or time, each in
path order.
-/

namespace FolderWatch

inductive Recognizer where
  | created
  | deleted
  | changed
  deriving DecidableEq, Repr, Inhabited

namespace Recognizer

def all : List Recognizer := [created, deleted, changed]

def name : Recognizer → String
  | created => "created"
  | deleted => "deleted"
  | changed => "changed"

def ofName? (text : String) : Option Recognizer :=
  all.find? fun recognizer => recognizer.name = text

def createdChanges (before after : Snapshot) : List Change :=
  (after.records.filter fun record => !before.contains record.path).map Change.created

def deletedChanges (before after : Snapshot) : List Change :=
  (before.records.filter fun record => !after.contains record.path).map Change.deleted

def changedChanges (before after : Snapshot) : List Change :=
  after.records.filterMap fun record => do
    let old ← before.get? record.path
    if old.Differs record then some (.modified old record) else none

def changes : Recognizer → Snapshot → Snapshot → List Change
  | created => createdChanges
  | deleted => deletedChanges
  | changed => changedChanges

/-- Snapshots of different directories are not compared. -/
def compare (recognizer : Recognizer) (before after : Snapshot) : List Change :=
  if before.directory.Same after.directory then recognizer.changes before after else []

def differentDirectories (before after : Snapshot) : LogLine :=
  ⟨.warn, "Not comparing snapshots of different directories: " ++ before.directory.display ++
    " and " ++ after.directory.display⟩

def compareLog (before after : Snapshot) : List LogLine :=
  if before.directory.Same after.directory then [] else [differentDirectories before after]

end Recognizer

end FolderWatch
