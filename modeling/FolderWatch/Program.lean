import FolderWatch.CommandLine.Arguments
import FolderWatch.Monitor
import FolderWatch.Settings.Load

/-!
What the program is to do, found from its command line and its settings, and what it writes for a
change.
-/

namespace FolderWatch

namespace Program

structure Surroundings where
  arguments : List (List UInt8)
  environment : Environment
  workingDirectory : Path
  view : DirectoryView
  read? : Path → Option (List UInt8)

inductive EarlyExit where
  | refusal (refusal : CommandLine.Refusal)
  | commandLine (defect : CommandLine.Defect)
  | settingsFile (defect : SettingsFile.Defect)
  | settings (defect : Settings.Defect)
  | unwatchable (path : Path) (fault : Fault)

namespace EarlyExit

def status : EarlyExit → Nat
  | refusal cause => cause.exitCode
  | _ => 1

def output : EarlyExit → String
  | refusal .version => CommandLine.versionText
  | _ => ""

/-- The error that is shown, unless it is about how the program is used. -/
def message? : EarlyExit → Option String
  | refusal _ => none
  | commandLine defect => some defect.message
  | settingsFile defect => some defect.message
  | settings defect => some defect.message
  | unwatchable path _ => some ("Cannot monitor " ++ path.display)

end EarlyExit

structure Plan where
  line : CommandLine
  settings : Settings
  path : Path

def settingsFile? (surroundings : Surroundings) (line : CommandLine) : Option SettingsFile :=
  line.config.map fun path => ⟨path, surroundings.read? path⟩

def effectiveSettings (surroundings : Surroundings) (line : CommandLine) :
    Except SettingsFile.Defect Settings := do
  let settings ← Settings.loadOrDefault (settingsFile? surroundings line) surroundings.environment
  return line.applyTo settings

def plan (surroundings : Surroundings) : Except EarlyExit Plan := do
  let line ← (CommandLine.ofArguments surroundings.arguments).mapError .refusal
  match line.defect? surroundings.view surroundings.workingDirectory with
  | some defect => throw (.commandLine defect)
  | none => pure ()
  let settings ← (effectiveSettings surroundings line).mapError .settingsFile
  match settings.defect? with
  | some defect => throw (.settings defect)
  | none => return ⟨line, settings, line.watchPath surroundings.workingDirectory⟩

namespace Plan

def header (plan : Plan) : String :=
  match plan.line.format with
  | .text => "Watching: " ++ plan.path.display ++ "\nPress Ctrl+C to quit\n---\n"
  | _ => ""

/-- The line that is written for a change, unless it has an extension that is not watched. -/
def line? (plan : Plan) (change : Change) : Option String :=
  if plan.line.watches change.path then change.line? plan.line.format (!plan.line.colourless)
  else none

def lines (plan : Plan) (changes : List Change) : List String := changes.filterMap plan.line?

end Plan

end Program

end FolderWatch
