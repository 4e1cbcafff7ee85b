import FolderWatch.Settings.Load

/-!
What each source says of a single setting: its variable, and the place that it has in a settings
file.
-/

namespace FolderWatch

inductive Setting where
  | delay
  | stopTimeout
  | firstScan
  | batched
  deriving DecidableEq, Repr

namespace Setting

abbrev Value : Setting → Type
  | delay | stopTimeout => UInt64
  | firstScan => FirstScan
  | batched => Bool

end Setting

def Settings.get (settings : Settings) : (setting : Setting) → setting.Value
  | .delay => settings.poll.delay
  | .stopTimeout => settings.poll.stopTimeout
  | .firstScan => settings.poll.firstScan
  | .batched => settings.batched

namespace Toml.Item

end Toml.Item

namespace Setting

open Toml

def builtIn (setting : Setting) : setting.Value := Settings.get {} setting

def name : Setting → String
  | delay => "delay_ms"
  | stopTimeout => "stop_timeout_secs"
  | firstScan => "initial_scan"
  | batched => "batch_events"

def place : Setting → Nat
  | delay | batched => 0
  | stopTimeout => 1
  | firstScan => 2

def read? : (setting : Setting) → Item → Option setting.Value
  | delay | stopTimeout => Item.word?
  | firstScan => FirstScan.ofToml?
  | batched => Item.boolean?

end Setting

section File

open Toml

variable {item : Item} {entries : Members}

end File

namespace Setting

variable {setting : Setting} {environment : Environment}

end Setting

end FolderWatch
