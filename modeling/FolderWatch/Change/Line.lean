import FolderWatch.Change.Json
import FolderWatch.LogLine

/-!
The lines that show changes: one for people, with the time of day and the sizes, one of JSON for
programs, and one with the letter of the kind only.
-/

namespace FolderWatch

inductive LineFormat where
  | text
  | json
  | compact
  deriving DecidableEq, Repr, Inhabited

namespace LineFormat

def all : List LineFormat := [text, json, compact]

def name : LineFormat → String
  | text => "text"
  | json => "json"
  | compact => "compact"

def ofName? (name : String) : Option LineFormat :=
  all.find? fun format => format.name = name

end LineFormat

namespace Change

/-- The first and the last millisecond of the years that a calendar shows. -/
def firstCalendarMillis : Int := -8334601228800000
def lastCalendarMillis : Int := 8210266876799999

def twoDigits (value : Nat) : String :=
  if value < 10 then "0" ++ toString value else toString value

def clock? (millis : Int64) : Option String :=
  if firstCalendarMillis ≤ millis.toInt ∧ millis.toInt ≤ lastCalendarMillis then
    let second := (millis.toInt / 1000 % 86400).toNat
    some (twoDigits (second / 3600) ++ ":" ++ twoDigits (second / 60 % 60) ++ ":" ++
      twoDigits (second % 60))
  else none

def clockText (change : Change) : String :=
  ((change.latest.bind fun record => clock? record.modified)).getD "--:--:--"

def sizeText (change : Change) : String :=
  match change.before, change.after with
  | some before, some after => toString before.length ++ " -> " ++ toString after.length ++ " bytes"
  | none, some record => toString record.length ++ " bytes"
  | some record, none => toString record.length ++ " bytes"
  | none, none => ""

def colour : ChangeKind → String
  | .created => "\x1b[32m"
  | .modified => "\x1b[33m"
  | .deleted => "\x1b[31m"

def kindText (coloured : Bool) (kind : ChangeKind) : String :=
  if coloured then colour kind ++ kind.label ++ "\x1b[0m" else kind.label

/-- The line of a change without its end, or none where the format cannot show it: JSON has no form
for a path that is not text. -/
def line? (format : LineFormat) (coloured : Bool) (change : Change) : Option String :=
  match format with
  | .text =>
      some ("[" ++ change.clockText ++ "] " ++ kindText coloured change.kind ++ " " ++
        change.path.display ++ " (" ++ change.sizeText ++ ")")
  | .json => change.toJson?.map String.ofList
  | .compact => some (change.kind.letter ++ " " ++ change.path.display)

def lineLog (format : LineFormat) (change : Change) : List LogLine :=
  match format, change.toJson? with
  | .json, none => [⟨.warn, "Failed to serialize event: path contains invalid UTF-8 characters"⟩]
  | _, _ => []

def output (format : LineFormat) (coloured : Bool) (changes : List Change) : String :=
  String.join ((changes.filterMap (line? format coloured)).map (· ++ "\n"))

end Change

end FolderWatch
