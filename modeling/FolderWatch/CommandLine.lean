import FolderWatch.Change.Line
import FolderWatch.DirectoryView
import FolderWatch.Settings

/-!
A command line after it is read: which directory to watch, how to print, and the settings that it
overrides.
-/

namespace FolderWatch

structure CommandLine where
  path : Option Path := none
  delay : Option UInt64 := none
  config : Option Path := none
  output : Option LineFormat := none
  extensions : Option (List String) := none
  reportExisting : Bool := false
  unbatched : Bool := false
  colourless : Bool := false
  verbose : Bool := false
  deriving DecidableEq, Repr, Inhabited

namespace CommandLine

def format (line : CommandLine) : LineFormat := line.output.getD .text

def watchPath (line : CommandLine) (workingDirectory : Path) : Path :=
  line.path.getD workingDirectory

def sameIgnoringCase (left right : String) : Bool :=
  left.toList.map Char.toLower = right.toList.map Char.toLower

def watches (line : CommandLine) (path : Path) : Bool :=
  match line.extensions with
  | none => true
  | some extensions =>
      match path.extension?.bind Utf8.text? with
      | none => false
      | some extension => extensions.any (sameIgnoringCase · extension)

def applyTo (line : CommandLine) (settings : Settings) : Settings where
  poll := {
    settings.poll with
    delay := line.delay.getD settings.poll.delay
    firstScan := if line.reportExisting then .reportExisting else settings.poll.firstScan }
  batched := if line.unbatched then false else settings.batched

inductive Defect where
  | missing (path : Path)
  | notDirectory (path : Path)
  | zeroDelay
  deriving DecidableEq, Repr

def Defect.message : Defect → String
  | missing path => "Path does not exist: " ++ path.display
  | notDirectory path => "Path is not a directory: " ++ path.display
  | zeroDelay => "Delay must be greater than 0"

def defect? (line : CommandLine) (view : DirectoryView) (workingDirectory : Path) :
    Option Defect :=
  let path := line.watchPath workingDirectory
  if !view.finds path then some (.missing path)
  else if !view.findsDirectory path then some (.notDirectory path)
  else if line.delay = some 0 then some .zeroDelay
  else none

end CommandLine

end FolderWatch
