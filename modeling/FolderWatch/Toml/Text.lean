import FolderWatch.Toml.Item

/-!
Blanks, comments, strings and keys of TOML texts.
-/

namespace FolderWatch.Toml

/-- A reader takes a value off the front of a text; none means that the text is not TOML. -/
abbrev Reader (α : Type) := List Char → Option (α × List Char)

def isSpace (char : Char) : Bool := char = ' ' || char = '\t'

def skipSpace (text : List Char) : List Char := text.dropWhile isSpace

def newline? : List Char → Option (List Char)
  | '\n' :: rest => some rest
  | '\r' :: '\n' :: rest => some rest
  | _ => none

/-- Control characters other than the tab stand nowhere but in line breaks. -/
def isControl (char : Char) : Bool := (char.toNat < 0x20 && char ≠ '\t') || char = '\x7f'

def skipComment : List Char → List Char
  | '#' :: rest => rest.dropWhile fun char => !isControl char
  | text => text

def endLine? (text : List Char) : Option (List Char) :=
  match skipComment (skipSpace text) with
  | [] => some []
  | rest => newline? rest

def skipBlank (text : List Char) : List Char :=
  go text.length text
where
  go : Nat → List Char → List Char
    | 0, text => text
    | fuel + 1, text =>
        let rest := skipSpace text
        match rest with
        | '#' :: _ =>
            match newline? (skipComment rest) with
            | some rest => go fuel rest
            | none => rest
        | _ =>
            match newline? rest with
            | some rest => go fuel rest
            | none => rest

def hexValue? (char : Char) : Option Nat :=
  if char.isDigit then some (char.toNat - 48)
  else if 'a' ≤ char ∧ char ≤ 'f' then some (char.toNat - 87)
  else if 'A' ≤ char ∧ char ≤ 'F' then some (char.toNat - 55)
  else none

def readCodePoint (width : Nat) : Reader Char := fun text => do
  let digits := text.take width
  if digits.length ≠ width then none
  let values ← digits.mapM hexValue?
  let code := values.foldl (fun code value => code * 16 + value) 0
  if code < 0xD800 ∨ (0xDFFF < code ∧ code < 0x110000) then
    some (Char.ofNat code, text.drop width)
  else none

def readEscape : Reader Char
  | 'b' :: rest => some ('\x08', rest)
  | 't' :: rest => some ('\t', rest)
  | 'n' :: rest => some ('\n', rest)
  | 'f' :: rest => some ('\x0c', rest)
  | 'r' :: rest => some ('\r', rest)
  | '"' :: rest => some ('"', rest)
  | '\\' :: rest => some ('\\', rest)
  | 'u' :: rest => readCodePoint 4 rest
  | 'U' :: rest => readCodePoint 8 rest
  | _ => none

def isPlain (char : Char) : Bool := !isControl char

def readBasic : (fuel : Nat) → Reader (List Char)
  | 0 => fun _ => none
  | fuel + 1 => fun
      | '"' :: rest => some ([], rest)
      | '\\' :: rest => do
          let (char, rest) ← readEscape rest
          let (chars, rest) ← readBasic fuel rest
          return (char :: chars, rest)
      | char :: rest => do
          if isPlain char then
            let (chars, rest) ← readBasic fuel rest
            return (char :: chars, rest)
          else none
      | [] => none

def readLiteral : Reader (List Char)
  | '\'' :: rest => some ([], rest)
  | char :: rest => do
      if isPlain char then
        let (chars, rest) ← readLiteral rest
        return (char :: chars, rest)
      else none
  | [] => none

/-- What a run of quotes inside a long string means: three end it, and up to two more before them
belong to it. -/
def closing? (quote : Char) (text : List Char) : Option (List Char × List Char) :=
  let run := (text.takeWhile (· = quote)).length
  if run < 3 then none
  else
    let inside := min (run - 3) 2
    some (List.replicate inside quote, text.drop (inside + 3))

/-- A backslash at the end of a line takes the line break and all blanks after it away. -/
def trimmedLine? (text : List Char) : Option (List Char) := do
  let rest ← newline? (skipSpace text)
  return skipBreaks rest.length rest
where
  skipBreaks : Nat → List Char → List Char
    | 0, text => text
    | fuel + 1, text =>
        match newline? (skipSpace text) with
        | some rest => skipBreaks fuel rest
        | none => skipSpace text

def readLong (quote : Char) (escapes : Bool) : (fuel : Nat) → Reader (List Char)
  | 0 => fun _ => none
  | fuel + 1 => fun text =>
      match closing? quote text with
      | some (inside, rest) => some (inside, rest)
      | none =>
          match newline? text with
          | some rest => do
              let (chars, rest) ← readLong quote escapes fuel rest
              return ('\n' :: chars, rest)
          | none =>
              match text with
              | [] => none
              | char :: rest => do
                  if char = '\\' ∧ escapes then
                    match trimmedLine? rest with
                    | some rest => readLong quote escapes fuel rest
                    | none =>
                        let (char, rest) ← readEscape rest
                        let (chars, rest) ← readLong quote escapes fuel rest
                        return (char :: chars, rest)
                  else if isPlain char then
                    let (chars, rest) ← readLong quote escapes fuel rest
                    return (char :: chars, rest)
                  else none

/-- A string of any of the four forms. A line break right after three quotes is not part of it. -/
def readString : Reader String := fun text => do
  let (chars, rest) ← match text with
    | '"' :: '"' :: '"' :: rest =>
        readLong '"' true text.length ((newline? rest).getD rest)
    | '\'' :: '\'' :: '\'' :: rest =>
        readLong '\'' false text.length ((newline? rest).getD rest)
    | '"' :: rest => readBasic text.length rest
    | '\'' :: rest => readLiteral rest
    | _ => none
  return (String.ofList chars, rest)

def isBare (char : Char) : Bool :=
  char.isAlphanum || char = '-' || char = '_'

def readSimpleKey : Reader String
  | '"' :: rest => do
      let (chars, after) ← readBasic (rest.length + 1) rest
      return (String.ofList chars, after)
  | '\'' :: rest => do
      let (chars, after) ← readLiteral rest
      return (String.ofList chars, after)
  | text =>
      match text.takeWhile isBare with
      | [] => none
      | chars => some (String.ofList chars, text.dropWhile isBare)

def depthLimit : Nat := 80

def readKeyParts : (fuel : Nat) → Reader (List String)
  | 0 => fun _ => none
  | fuel + 1 => fun text => do
      let (key, rest) ← readSimpleKey (skipSpace text)
      match skipSpace rest with
      | '.' :: rest =>
          let (keys, rest) ← readKeyParts fuel rest
          return (key :: keys, rest)
      | rest => return ([key], rest)

def readKey : Reader (List String × String) := fun text => do
  let (keys, rest) ← readKeyParts text.length text
  if depthLimit ≤ keys.length then none
  let last ← keys.getLast?
  return ((keys.dropLast, last), rest)

end FolderWatch.Toml
