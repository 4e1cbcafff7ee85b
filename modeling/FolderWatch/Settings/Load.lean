import FolderWatch.CommandLine
import FolderWatch.Settings.Environment
import FolderWatch.Settings.File

/-!
Settings from all their sources. What the command line gives goes before the environment, that
before the settings file, and that before the defaults.
-/

namespace FolderWatch

structure SettingsFile where
  path : Path
  content : Option (List UInt8)

namespace SettingsFile

inductive Defect where
  /-- It is not there, or it is not text. -/
  | unread (path : Path)
  | malformed (path : Path)
  deriving DecidableEq, Repr

def Defect.message : Defect → String
  | unread path => "Failed to read config file " ++ path.display
  | malformed path => "Failed to parse config file " ++ path.display

def load (file : SettingsFile) : Except Defect Settings :=
  match file.content.bind Utf8.text? with
  | none => .error (.unread file.path)
  | some text => (Settings.ofText? text).elim (.error (.malformed file.path)) .ok

end SettingsFile

namespace Settings

def loadOrDefault (file : Option SettingsFile) (environment : Environment) :
    Except SettingsFile.Defect Settings := do
  let settings ← match file with
    | none => pure {}
    | some file => file.load
  return settings.withEnvironment environment

/-- What loading logs: nothing if the file does not load. -/
def loadLog (file : Option SettingsFile) (environment : Environment) : List LogLine :=
  match loadOrDefault file environment with
  | .ok _ => environmentLog environment
  | .error _ => []

end Settings

end FolderWatch
