import FolderWatch.Settings
import FolderWatch.LogLine
import FolderWatch.Text.Utf8
import FolderWatch.Word

/-!
Settings taken from environment variables. Each variable sets one field; one that is missing, is not
text or does not parse leaves its field alone.
-/

namespace FolderWatch

abbrev Environment := List (String × List UInt8)

namespace Environment

def text? (environment : Environment) (name : String) : Option String := do
  Utf8.text? (← environment.lookup name)

end Environment

namespace Settings

def delayVariable : String := "DIRPOLL_DELAY_MS"
def stopTimeoutVariable : String := "DIRPOLL_STOP_TIMEOUT_SECS"
def firstScanVariable : String := "DIRPOLL_INITIAL_SCAN"

def wordVariable? (environment : Environment) (name : String) : Option UInt64 := do
  parseWord? (← environment.text? name)

def firstScanVariable? (environment : Environment) : Option FirstScan := do
  (FirstScan.parse (← environment.text? firstScanVariable)).toOption

def withEnvironment (settings : Settings) (environment : Environment) : Settings :=
  { settings with
    poll := {
      delay := (wordVariable? environment delayVariable).getD settings.poll.delay
      stopTimeout :=
        (wordVariable? environment stopTimeoutVariable).getD settings.poll.stopTimeout
      firstScan := (firstScanVariable? environment).getD settings.poll.firstScan } }

/-- Only a first-scan mode that is not known is worth a warning. -/
def environmentLog (environment : Environment) : List LogLine :=
  match environment.text? firstScanVariable with
  | none => []
  | some text =>
      match FirstScan.parse text with
      | .ok _ => []
      | .error unknown => [⟨.warn, "Ignoring " ++ firstScanVariable ++ ": " ++ unknown⟩]

end Settings

end FolderWatch
