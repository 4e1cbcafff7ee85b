import FolderWatch.FileRecord
import FolderWatch.Json.Reader

/-!
The JSON form of paths and file records. A path that is not valid UTF-8 has none.
-/

namespace FolderWatch

namespace Path

def toJson? (path : Path) : Option (List Char) := path.text?.map Json.quote

def readJson : Json.Reader Path := fun text => do
  let (text, rest) ← Json.readString text
  return (.ofString text, rest)

end Path

namespace FileRecord

def toJson? (record : FileRecord) : Option (List Char) := do
  let path ← record.path.toJson?
  return "\x7b\"path\":".toList ++ path ++ ",\"length\":".toList ++
    Json.natural record.length.toNat ++ ",\"last_modified\":".toList ++
    Json.integer record.modified.toInt ++ ['}']

structure Fields where
  path : Option Path := none
  length : Option UInt64 := none
  modified : Option Int64 := none

namespace Fields

def readMember (fields : Fields) (name : String) : Json.Reader Fields := fun text => do
  if name = "path" then
    let (path, rest) ← Json.readField fields.path Path.readJson text
    return ({ fields with path }, rest)
  else if name = "length" then
    let (length, rest) ← Json.readField fields.length Json.readUInt64 text
    return ({ fields with length }, rest)
  else if name = "last_modified" then
    let (modified, rest) ← Json.readField fields.modified Json.readInt64 text
    return ({ fields with modified }, rest)
  else Json.skipMember fields text

def finish (fields : Fields) : Except Json.Fault FileRecord := do
  return ⟨← Json.required fields.path, ← Json.required fields.length,
    ← Json.required fields.modified⟩

end Fields

def readElements : Json.Reader FileRecord := fun text => do
  let (path, text) ← Json.readElement true Path.readJson text
  let (length, text) ← Json.readElement false Json.readUInt64 text
  let (modified, text) ← Json.readElement false Json.readInt64 text
  return (⟨path, length, modified⟩, text)

def readJson : Json.Reader FileRecord :=
  Json.readStructure readElements {} Fields.readMember Fields.finish

end FileRecord

end FolderWatch
