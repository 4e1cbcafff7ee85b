import FolderWatch.CommandLine
import FolderWatch.Settings.Environment

/-!
How a command line is read from its arguments. An option with a value may wait for it, so its value
is judged only when the next argument is read; the first thing found wrong is what is reported.
-/

namespace FolderWatch

namespace CommandLine

inductive Refusal where
  | unknownArgument
  | invalidValue
  | badNumber
  | conflict
  | unexpectedValue
  | notText
  | help
  | version
  deriving DecidableEq, Repr

def Refusal.exitCode : Refusal → Nat
  | help | version => 0
  | _ => 2

def versionText : String := "dirpoll 0.1.0\n"

inductive Valued where
  | path
  | delay
  | config
  | output
  | extensions
  deriving DecidableEq, Repr

inductive Switch where
  | reportExisting
  | unbatched
  | colourless
  | verbose
  | help
  | version
  deriving DecidableEq, Repr

inductive Choice where
  | valued (which : Valued)
  | switch (which : Switch)
  deriving DecidableEq, Repr

@[match_pattern] def dash : UInt8 := 45
def equalsSign : UInt8 := '='.toUInt8

def longNames : List (String × Choice) :=
  [("delay", .valued .delay), ("config", .valued .config), ("output", .valued .output),
    ("extensions", .valued .extensions), ("report-existing", .switch .reportExisting),
    ("no-batch", .switch .unbatched), ("no-color", .switch .colourless),
    ("verbose", .switch .verbose), ("help", .switch .help), ("version", .switch .version)]

def shortNames : List (UInt8 × Choice) :=
  [('d'.toUInt8, .valued .delay), ('c'.toUInt8, .valued .config),
    ('v'.toUInt8, .switch .verbose), ('h'.toUInt8, .switch .help),
    ('V'.toUInt8, .switch .version)]

structure Waiting where
  which : Valued
  value : Option (List UInt8) := none

structure Reading where
  line : CommandLine := {}
  waiting : Option Waiting := none
  positionalMet : Bool := false
  /-- Everything after `--` is positional. -/
  trailing : Bool := false

def setOnce {α : Type} (old : Option α) (new : Except Refusal α) : Except Refusal (Option α) :=
  match old with
  | some _ => .error .conflict
  | none => new.map some

def readPath (value : List UInt8) : Except Refusal Path :=
  if value = [] then .error .invalidValue else .ok ⟨value⟩

def readNumber (value : List UInt8) : Except Refusal UInt64 :=
  match Utf8.text? value with
  | none => .error .notText
  | some text => (parseWord? text).elim (.error .badNumber) .ok

def readFormat (value : List UInt8) : Except Refusal LineFormat :=
  ((Utf8.text? value).bind LineFormat.ofName?).elim (.error .invalidValue) .ok

def splitAtCommas (value : List UInt8) : List (List UInt8) :=
  value.splitOn ','.toUInt8

def readTexts (values : List (List UInt8)) : Except Refusal (List String) :=
  values.mapM fun value => (Utf8.text? value).elim (.error .notText) .ok

def setValue (line : CommandLine) (which : Valued) (value : List UInt8) :
    Except Refusal CommandLine :=
  match which with
  | .path => do return { line with path := ← setOnce line.path (readPath value) }
  | .delay => do return { line with delay := ← setOnce line.delay (readNumber value) }
  | .config => do return { line with config := ← setOnce line.config (readPath value) }
  | .output => do return { line with output := ← setOnce line.output (readFormat value) }
  | .extensions => do
      let more ← readTexts (splitAtCommas value)
      return { line with extensions := some (line.extensions.getD [] ++ more) }

def raise (given : Bool) : Except Refusal Bool :=
  if given then .error .conflict else .ok true

def setSwitch (line : CommandLine) : Switch → Except Refusal CommandLine
  | .reportExisting => do return { line with reportExisting := ← raise line.reportExisting }
  | .unbatched => do return { line with unbatched := ← raise line.unbatched }
  | .colourless => do return { line with colourless := ← raise line.colourless }
  | .verbose => do return { line with verbose := ← raise line.verbose }
  | .help => .error .help
  | .version => .error .version

namespace Reading

def settle (reading : Reading) : Except Refusal Reading :=
  match reading.waiting with
  | none => .ok reading
  | some ⟨_, none⟩ => .error .invalidValue
  | some ⟨which, some value⟩ => do
      return { reading with line := ← setValue reading.line which value, waiting := none }

def awaitsValue (reading : Reading) : Bool :=
  match reading.waiting with
  | some ⟨_, none⟩ => true
  | _ => false

def takeValued (reading : Reading) (which : Valued) (attached : Option (List UInt8)) :
    Except Refusal Reading := do
  let reading ← reading.settle
  match attached with
  | none => return { reading with waiting := some ⟨which, none⟩ }
  | some value => return { reading with line := ← setValue reading.line which value }

def takeSwitch (reading : Reading) (which : Switch) : Except Refusal Reading := do
  let reading ← reading.settle
  return { reading with line := ← setSwitch reading.line which }

def takeLong (reading : Reading) (body : List UInt8) : Except Refusal Reading :=
  let name := body.takeWhile (· ≠ equalsSign)
  let attached := (body.dropWhile (· ≠ equalsSign)).tail?
  match (Utf8.text? name).bind fun name => longNames.lookup name with
  | none => .error .unknownArgument
  | some (.valued which) => reading.takeValued which attached
  | some (.switch which) =>
      if attached.isSome then .error .unexpectedValue else reading.takeSwitch which

/-- What follows one dash: switches, then perhaps a valued option with its value attached. -/
def takeShort (reading : Reading) : List UInt8 → Except Refusal Reading
  | [] => .ok reading
  | letter :: rest =>
      match shortNames.lookup letter with
      | none => .error .unknownArgument
      | some (.switch which) => do (← reading.takeSwitch which).takeShort rest
      | some (.valued which) =>
          match rest with
          | [] => reading.takeValued which none
          | first :: more =>
              reading.takeValued which (some (if first = equalsSign then more else rest))

def takePositional (reading : Reading) (argument : List UInt8) : Except Refusal Reading :=
  if reading.positionalMet then .error .unknownArgument
  else do
    let reading ← reading.settle
    return { reading with waiting := some ⟨.path, some argument⟩, positionalMet := true }

def take (reading : Reading) (argument : List UInt8) : Except Refusal Reading :=
  if reading.trailing then reading.takePositional argument
  else match argument with
    | [dash, dash] => .ok { reading with trailing := true }
    | dash :: dash :: body => reading.takeLong body
    | dash :: first :: rest => reading.takeShort (first :: rest)
    | _ =>
        match reading.waiting with
        | some ⟨which, none⟩ => .ok { reading with waiting := some ⟨which, some argument⟩ }
        | _ => reading.takePositional argument

end Reading

def ofArguments (arguments : List (List UInt8)) : Except Refusal CommandLine := do
  let reading ← arguments.tail.foldlM Reading.take {}
  return (← reading.settle).line

end CommandLine

end FolderWatch
