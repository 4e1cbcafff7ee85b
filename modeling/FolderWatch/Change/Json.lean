import FolderWatch.Change
import FolderWatch.FileRecord.Json

/-!
The JSON form of changes. A missing record reads as none.
-/

namespace FolderWatch

namespace ChangeKind

def ofLabel? (label : String) : Option ChangeKind :=
  all.find? fun kind => kind.label = label

def toJson (kind : ChangeKind) : List Char := Json.quote kind.label

def readJson : Json.Reader ChangeKind := Json.readName ofLabel?

end ChangeKind

namespace Change

def recordJson? : Option FileRecord → Option (List Char)
  | none => some "null".toList
  | some record => record.toJson?

def toJson? (change : Change) : Option (List Char) := do
  let before ← recordJson? change.before
  let after ← recordJson? change.after
  return "\x7b\"kind\":".toList ++ change.kind.toJson ++ ",\"before\":".toList ++ before ++
    ",\"after\":".toList ++ after ++ ['}']

structure Fields where
  kind : Option ChangeKind := none
  before : Option (Option FileRecord) := none
  after : Option (Option FileRecord) := none

namespace Fields

def readMember (fields : Fields) (name : String) : Json.Reader Fields := fun text => do
  if name = "kind" then
    let (kind, rest) ← Json.readField fields.kind ChangeKind.readJson text
    return ({ fields with kind }, rest)
  else if name = "before" then
    let (before, rest) ← Json.readField fields.before (Json.readOption FileRecord.readJson) text
    return ({ fields with before }, rest)
  else if name = "after" then
    let (after, rest) ← Json.readField fields.after (Json.readOption FileRecord.readJson) text
    return ({ fields with after }, rest)
  else Json.skipMember fields text

def finish (fields : Fields) : Except Json.Fault Change := do
  return ⟨← Json.required fields.kind, fields.before.join, fields.after.join⟩

end Fields

def readElements : Json.Reader Change := fun text => do
  let (kind, text) ← Json.readElement true ChangeKind.readJson text
  let (before, text) ← Json.readElement false (Json.readOption FileRecord.readJson) text
  let (after, text) ← Json.readElement false (Json.readOption FileRecord.readJson) text
  return (⟨kind, before, after⟩, text)

def readJson : Json.Reader Change :=
  Json.readStructure readElements {} Fields.readMember Fields.finish

end Change

end FolderWatch
