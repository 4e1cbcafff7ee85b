import FolderWatch.FileRecord
import FolderWatch.Fault

/-!
What can be seen of the file system at one moment: the names a directory lists, and what a path
leads to once links are followed.
-/

namespace FolderWatch

inductive Metadata where
  | file (length : UInt64) (modified : Instant)
  | directory
  | other
  deriving DecidableEq, Repr

inductive Listed where
  | entry (name : List UInt8)
  | unreadable (error : AccessError)
  deriving DecidableEq, Repr

structure DirectoryView where
  list : Path → Except AccessError (List Listed)
  lookup : Path → Except AccessError Metadata

namespace DirectoryView

def finds (view : DirectoryView) (path : Path) : Bool := (view.lookup path).isOk

def findsDirectory (view : DirectoryView) (path : Path) : Bool :=
  match view.lookup path with
  | .ok .directory => true
  | _ => false

def checkDirectory (view : DirectoryView) (directory : Path) : Except Fault Unit :=
  match view.lookup directory with
  | .error error => .error (.configuration directory (.inaccessible error))
  | .ok .directory =>
      match view.list directory with
      | .error error => .error (.configuration directory (.unreadable error))
      | .ok _ => .ok ()
  | .ok _ => .error (.configuration directory .notDirectory)

end DirectoryView

end FolderWatch
