import FolderWatch.Toml.Scalar

/-!
Values, lines and whole TOML documents.
-/

namespace FolderWatch.Toml

def expectWord : List Char → List Char → Option (List Char)
  | [], text => some text
  | _ :: _, [] => none
  | expected :: word, char :: text => if char = expected then expectWord word text else none

mutual

/-- A value inside so many brackets and braces that `depth` more may open. -/
def readValue (fuel depth : Nat) (text : List Char) : Option (Item × List Char) :=
  match fuel with
  | 0 => none
  | fuel + 1 =>
      match text with
      | [] => none
      | '"' :: _ => (readString text).map fun (text, rest) => (.string text, rest)
      | '\'' :: _ => (readString text).map fun (text, rest) => (.string text, rest)
      | 't' :: rest => (expectWord ['r', 'u', 'e'] rest).map (.boolean true, ·)
      | 'f' :: rest => (expectWord ['a', 'l', 's', 'e'] rest).map (.boolean false, ·)
      | '[' :: rest =>
          match depth with
          | 0 => none
          | depth + 1 => (readArray fuel depth rest).map fun (items, rest) => (.array items, rest)
      | '{' :: rest =>
          match depth with
          | 0 => none
          | depth + 1 =>
              match skipSpace rest with
              | '}' :: rest => some (.table .inline [], rest)
              | rest =>
                  (readMembers fuel depth [] rest).map fun (entries, rest) =>
                    (.table .inline entries, rest)
      | _ => readScalar text

def readArray (fuel depth : Nat) (text : List Char) : Option (List Item × List Char) :=
  match fuel with
  | 0 => none
  | fuel + 1 =>
      match skipBlank text with
      | ']' :: rest => some ([], rest)
      | text => do
          let (item, rest) ← readValue fuel depth text
          match skipBlank rest with
          | ']' :: rest => return ([item], rest)
          | ',' :: rest =>
              let (items, rest) ← readArray fuel depth rest
              return (item :: items, rest)
          | _ => none

def readMembers (fuel depth : Nat) (entries : Members) (text : List Char) :
    Option (Members × List Char) :=
  match fuel with
  | 0 => none
  | fuel + 1 => do
      let ((path, key), rest) ← readKey text
      let (value, rest) ← readValue fuel depth (skipSpace (← expect '=' rest))
      let entries ← entries.addValue path key value .inline
      match skipSpace rest with
      | '}' :: rest => return (entries, rest)
      | ',' :: rest => readMembers fuel depth entries rest
      | _ => none

end

/-- A document under construction: the tables that are complete, and the one that lines are being
added to. -/
structure Draft where
  root : Members := []
  path : List String := []
  key : Option String := none
  isElement : Bool := false
  current : Members := []

namespace Draft

def close (draft : Draft) : Option Members :=
  match draft.key with
  | none => some draft.current
  | some key =>
      Members.update (fun _ entries =>
        match entries.get? key, draft.isElement with
        | none, false => some (entries.put key (.table .header draft.current))
        | none, true => some (entries.put key (.tables [draft.current]))
        | some (.tables elements), true =>
            some (entries.put key (.tables (elements ++ [draft.current])))
        | _, _ => none) false draft.path .header draft.root

/-- Opens a table by its header. One that only headers below it made may be opened once. -/
def openTable (draft : Draft) (path : List String) (key : String) : Option Draft := do
  let root ← draft.close
  let parent ← Members.update (fun _ entries =>
    match entries.get? key with
    | none => some entries
    | some (.table .implied _) => some entries
    | some _ => none) false path .header root
  let current := match itemAt? path parent with
    | some (.table _ entries) => entries
    | _ => []
  let root ← Members.update (fun _ entries => some (entries.erase key)) false path .header parent
  return { root, path, key := some key, current }
where
  itemAt? : List String → Members → Option Item
    | [], entries => entries.get? key
    | step :: path, entries =>
        match entries.get? step with
        | some (.table _ inner) => itemAt? path inner
        | some (.tables elements) => do itemAt? path (← elements.getLast?)
        | _ => none

def openElement (draft : Draft) (path : List String) (key : String) : Option Draft := do
  let root ← draft.close
  let root ← Members.update (fun _ entries =>
    match entries.get? key with
    | none => some entries
    | some (.tables _) => some entries
    | some _ => none) false path .header root
  return { root, path, key := some key, isElement := true }

def addValue (draft : Draft) (path : List String) (key : String) (value : Item) : Option Draft := do
  return { draft with current := ← draft.current.addValue path key value .header }

end Draft

def readHeader (draft : Draft) (text : List Char) : Option (Draft × List Char) :=
  match text with
  | '[' :: rest => do
      let ((path, key), rest) ← readKey rest
      let rest ← endLine? (← expect ']' (← expect ']' rest))
      return (← draft.openElement path key, rest)
  | _ => do
      let ((path, key), rest) ← readKey text
      let rest ← endLine? (← expect ']' rest)
      return (← draft.openTable path key, rest)

def readKeyValue (draft : Draft) (text : List Char) : Option (Draft × List Char) := do
  let ((path, key), rest) ← readKey text
  let (value, rest) ← readValue (2 * text.length) (depthLimit - 1) (skipSpace (← expect '=' rest))
  let rest ← endLine? rest
  return (← draft.addValue path key value, rest)

def readLines : (fuel : Nat) → Draft → List Char → Option Members
  | 0, draft, _ => draft.close
  | fuel + 1, draft, text =>
      match skipSpace text with
      | [] => draft.close
      | '[' :: rest => do
          let (draft, rest) ← readHeader draft rest
          readLines fuel draft rest
      | '#' :: rest => do readLines fuel draft (← endLine? ('#' :: rest))
      | '\n' :: rest => readLines fuel draft rest
      | '\r' :: rest => do readLines fuel draft (← newline? ('\r' :: rest))
      | text => do
          let (draft, rest) ← readKeyValue draft text
          readLines fuel draft rest

/-- The entries of a whole document, which may start with a byte order mark. -/
def readDocument (text : String) : Option Members :=
  let chars := match text.toList with
    | '\uFEFF' :: rest => rest
    | all => all
  readLines (chars.length + 1) {} chars

end FolderWatch.Toml
