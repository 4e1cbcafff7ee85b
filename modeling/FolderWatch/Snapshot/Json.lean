import FolderWatch.Snapshot
import FolderWatch.FileRecord.Json

/-!
The JSON form of snapshots. Keys are read as they stand, whatever path their records have; of equal
keys the first spelling stays with the last record.
-/

namespace FolderWatch.Snapshot

def entryJson? (entry : Path × FileRecord) : Option (List Char) := do
  let key ← entry.1.toJson?
  let record ← entry.2.toJson?
  return key ++ ':' :: record

def toJson? (snapshot : Snapshot) : Option (List Char) := do
  let directory ← snapshot.directory.toJson?
  let entries ← snapshot.entries.mapM entryJson?
  return "\x7b\"directory\":".toList ++ directory ++ ",\"records\":\x7b".toList ++
    List.intercalate [','] entries ++ ['}', '}']

def readEntry (snapshot : Snapshot) (key : String) : Json.Reader Snapshot := fun text => do
  let (record, rest) ← FileRecord.readJson (← Json.expectColon text)
  return (snapshot.insert .first (.ofString key) record, rest)

def readEntries : Json.Reader Snapshot := fun text =>
  match Json.skipBlank text with
  | [] => .error .truncated
  | '{' :: rest => Json.readMembers readEntry rest.length true (empty ⟨[]⟩) rest
  | other => .error (Json.wrongType other)

structure Fields where
  directory : Option Path := none
  records : Option Snapshot := none

def inDirectory (directory : Path) (records : Snapshot) : Snapshot := { records with directory }

namespace Fields

def readMember (fields : Fields) (name : String) : Json.Reader Fields := fun text => do
  if name = "directory" then
    let (directory, rest) ← Json.readField fields.directory Path.readJson text
    return ({ fields with directory }, rest)
  else if name = "records" then
    let (records, rest) ← Json.readField fields.records readEntries text
    return ({ fields with records }, rest)
  else Json.skipMember fields text

def finish (fields : Fields) : Except Json.Fault Snapshot := do
  return inDirectory (← Json.required fields.directory) (← Json.required fields.records)

end Fields

def readElements : Json.Reader Snapshot := fun text => do
  let (directory, text) ← Json.readElement true Path.readJson text
  let (records, text) ← Json.readElement false readEntries text
  return (inDirectory directory records, text)

def readJson : Json.Reader Snapshot :=
  Json.readStructure readElements {} Fields.readMember Fields.finish

end FolderWatch.Snapshot
