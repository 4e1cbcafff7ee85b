/-!
TOML documents as trees. A table remembers how it was made, because that decides what may still be
added to it.
-/

namespace FolderWatch.Toml

inductive Origin where
  | header
  /-- A header below it. -/
  | implied
  /-- A dotted key through it. -/
  | dotted
  | inline
  deriving DecidableEq, Repr

inductive Item where
  | string (text : String)
  | integer (value : Int)
  | float
  | boolean (value : Bool)
  | moment
  | array (items : List Item)
  | table (origin : Origin) (entries : List (String × Item))
  | tables (entries : List (List (String × Item)))
  deriving Repr, Inhabited

abbrev Members := List (String × Item)

namespace Members

def get? (entries : Members) (key : String) : Option Item := List.lookup key entries

/-- Gives a key a value: in place where it is there, else at the end. -/
def put (entries : Members) (key : String) (item : Item) : Members :=
  match entries with
  | [] => [(key, item)]
  | (other, old) :: rest =>
      if other = key then (key, item) :: rest else (other, old) :: put rest key item

def erase (entries : Members) (key : String) : Members :=
  entries.filter fun entry => entry.1 ≠ key

/-- Changes the table at the end of a path, making the tables that are missing on the way. A dotted
key does not pass through a table with a header of its own, and nothing passes through a value. -/
def update (change : Origin → Members → Option Members) (dotted : Bool) :
    List String → Origin → Members → Option Members
  | [], origin, entries => change origin entries
  | key :: path, _, entries =>
      match entries.get? key with
      | none => do
          let origin := if dotted then .dotted else .implied
          let inner ← update change dotted path origin []
          return entries.put key (.table origin inner)
      | some (.table origin inner) => do
          if origin = .inline ∨ (dotted ∧ origin = .header) then none
          else return entries.put key (.table origin (← update change dotted path origin inner))
      | some (.tables elements) => do
          let last ← elements.getLast?
          let inner ← update change dotted path .header last
          return entries.put key (.tables (elements.dropLast ++ [inner]))
      | some _ => none

/-- Adds a value that no earlier line gave. A dotted key ends in a table that dotted keys made. -/
def addValue (path : List String) (key : String) (value : Item) (origin : Origin)
    (entries : Members) : Option Members :=
  update (fun origin entries =>
    if decide (origin = .dotted) = path.isEmpty then none
    else if (entries.get? key).isSome then none
    else some (entries.put key value)) true path origin entries

end Members

end FolderWatch.Toml
