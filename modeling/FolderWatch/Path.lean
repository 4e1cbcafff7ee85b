import FolderWatch.Text.Utf8

/-!
Paths are byte strings read as lists of components. Repeated slashes, trailing slashes and inner
`.` components add nothing to that list, so one file has many spellings; a path keeps its own.
-/

namespace FolderWatch

inductive Component where
  | root
  | here
  | parent
  | name (bytes : List UInt8)
  deriving DecidableEq, Repr, Inhabited

structure Path where
  bytes : List UInt8
  deriving DecidableEq, Repr, Inhabited

namespace Path

def slash : UInt8 := '/'.toUInt8
def dot : UInt8 := '.'.toUInt8

def ofString (text : String) : Path := ⟨Utf8.encode text⟩

def text? (path : Path) : Option String := Utf8.text? path.bytes

def display (path : Path) : String := Utf8.display path.bytes

theorem text?_ofString (text : String) : (ofString text).text? = some text :=
  Utf8.text?_encode text

theorem ofString_of_text? {path : Path} {text : String} (spelled : path.text? = some text) :
    ofString text = path := by
  rw [ofString, Utf8.encode_of_text? spelled]

/-- The parts of a byte string between its slashes; there is always at least one. -/
def segments : List UInt8 → List (List UInt8)
  | [] => [[]]
  | byte :: rest =>
      if byte = slash then [] :: segments rest
      else match segments rest with
        | [] => [[byte]]
        | segment :: more => (byte :: segment) :: more

/-- A segment after the first: empty ones and `.` are no component. -/
def Segment.component? (segment : List UInt8) : Option Component :=
  if segment = [] ∨ segment = [dot] then none
  else if segment = [dot, dot] then some .parent
  else some (.name segment)

/-- A leading slash is the root, and only a leading `.` counts. -/
def components (path : Path) : List Component :=
  match segments path.bytes with
  | [] => []
  | [[]] => []
  | [] :: rest => .root :: rest.filterMap Segment.component?
  | segment :: rest =>
      if segment = [dot] then .here :: rest.filterMap Segment.component?
      else (segment :: rest).filterMap Segment.component?

def isAbsolute (path : Path) : Bool := path.bytes.head? = some slash

/-- An absolute path stands for itself; any other is appended after exactly one slash. -/
def join (base tail : Path) : Path :=
  if tail.isAbsolute then tail
  else if base.bytes = [] ∨ base.bytes.getLast? = some slash then ⟨base.bytes ++ tail.bytes⟩
  else ⟨base.bytes ++ slash :: tail.bytes⟩

def fileName? (path : Path) : Option (List UInt8) :=
  match path.components.getLast? with
  | some (.name bytes) => some bytes
  | _ => none

/-- What follows the last dot of the file name. A name whose only dot comes first has none. -/
def extension? (path : Path) : Option (List UInt8) := do
  let name ← path.fileName?
  let reversed := name.reverse
  let tail := reversed.takeWhile (· ≠ dot)
  match reversed.dropWhile (· ≠ dot) with
  | _ :: _ :: _ => some tail.reverse
  | _ => none

/-- Component by component, `tail` is the end of `path`. -/
def endsWith (path tail : Path) : Bool :=
  tail.components.isSuffixOf path.components

def Same (left right : Path) : Prop := left.components = right.components

instance (left right : Path) : Decidable (Same left right) :=
  inferInstanceAs (Decidable (left.components = right.components))

theorem Same.refl (path : Path) : Same path path := rfl

theorem Same.symm {left right : Path} (same : Same left right) : Same right left :=
  Eq.symm same

theorem Same.trans {left middle right : Path} (first : Same left middle)
    (second : Same middle right) : Same left right :=
  Eq.trans first second

end Path

end FolderWatch
