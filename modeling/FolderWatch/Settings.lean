import FolderWatch.TimeSpan

/-!
Settings of the program: how it polls and how it delivers changes.
-/

namespace FolderWatch

inductive FirstScan where
  /-- They are the baseline and are not reported. -/
  | baseline
  | reportExisting
  deriving DecidableEq, Repr, Inhabited

namespace FirstScan

def all : List FirstScan := [baseline, reportExisting]

def name : FirstScan → String
  | baseline => "baseline"
  | reportExisting => "report_existing"

def ofName? (name : String) : Option FirstScan :=
  all.find? fun mode => mode.name = name

/-- ASCII letters in lower case and dashes as underscores; all else as it is. -/
def normalize (text : String) : String :=
  String.ofList (text.toList.map fun char => if char = '-' then '_' else char.toLower)

/-- A mode as people write it. The error is the normalized text. -/
def parse (text : String) : Except String FirstScan :=
  match ofName? (normalize text) with
  | some mode => .ok mode
  | none => .error ("unknown initial scan mode: " ++ normalize text)

end FirstScan

structure PollSettings where
  /-- Milliseconds between two scans. -/
  delay : UInt64 := 5000
  /-- Seconds that a stop waits for the poller. -/
  stopTimeout : UInt64 := 10
  firstScan : FirstScan := .baseline
  deriving DecidableEq, Repr, Inhabited

namespace PollSettings

def delaySpan (settings : PollSettings) : TimeSpan := .ofMillis settings.delay.toNat

def stopTimeoutSpan (settings : PollSettings) : TimeSpan := .ofSeconds settings.stopTimeout.toNat

end PollSettings

structure Settings where
  poll : PollSettings := {}
  batched : Bool := true
  deriving DecidableEq, Repr, Inhabited

namespace Settings

inductive Defect where
  | zeroDelay
  | zeroStopTimeout
  deriving DecidableEq, Repr

def Defect.message : Defect → String
  | zeroDelay => "delay_ms must be greater than 0"
  | zeroStopTimeout => "stop_timeout_secs must be greater than 0"

def defect? (settings : Settings) : Option Defect :=
  if settings.poll.delay = 0 then some .zeroDelay
  else if settings.poll.stopTimeout = 0 then some .zeroStopTimeout
  else none

end Settings

end FolderWatch
