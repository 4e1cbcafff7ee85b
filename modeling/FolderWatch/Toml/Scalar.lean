import FolderWatch.Toml.Text
import FolderWatch.Word

/-!
Numbers and moments of TOML texts. Only integers keep their value.
-/

namespace FolderWatch.Toml

/-- The rest of a run of digits in which single underscores stand between digits. -/
def digitRun? (isDigit : Char → Bool) : List Char → Option (List Char × List Char)
  | '_' :: digit :: rest =>
      if isDigit digit then do
        let (digits, rest) ← digitRun? isDigit rest
        return (digit :: digits, rest)
      else none
  | '_' :: [] => none
  | digit :: rest =>
      if isDigit digit then do
        let (digits, rest) ← digitRun? isDigit rest
        return (digit :: digits, rest)
      else some ([], digit :: rest)
  | [] => some ([], [])

def readDigits (isDigit : Char → Bool) : Reader (List Char)
  | digit :: rest =>
      if isDigit digit then do
        let (digits, rest) ← digitRun? isDigit rest
        return (digit :: digits, rest)
      else none
  | [] => none

def readPlainDigits : Reader (List Char)
  | '0' :: rest => some (['0'], rest)
  | text => readDigits Char.isDigit text

def valueIn (base : Nat) (digits : List Char) : Nat :=
  digits.foldl (fun value digit => value * base + (hexValue? digit).getD 0) 0

def readSigned (negative : Bool) (digits rest : List Char) : Option (Item × List Char) :=
  let value := valueIn 10 digits
  if negative then if value ≤ signedLimit then some (.integer (-value), rest) else none
  else if value < signedLimit then some (.integer value, rest) else none

def readBased (base : Nat) : Reader Item := fun text => do
  let isDigit (char : Char) : Bool := ((hexValue? char).map (decide <| · < base)).getD false
  let (digits, rest) ← readDigits isDigit text
  let value := valueIn base digits
  if value < signedLimit then return (.integer value, rest) else none

def beyondDouble (digits : List Char) (exponent : Int) : Bool :=
  let significant := digits.dropWhile (· = '0')
  let value := valueIn 10 significant
  let size := (significant.length : Int) + exponent
  if value = 0 ∨ size < 300 then false
  else if 400 < size then true
  else if 0 ≤ exponent then Nat.pow 2 1024 - Nat.pow 2 970 ≤ value * Nat.pow 10 exponent.toNat
  else (Nat.pow 2 1024 - Nat.pow 2 970) * Nat.pow 10 (-exponent).toNat ≤ value

def readFloatTail (negative : Bool) (whole : List Char) : Reader Item := fun text => do
  let (fraction, rest) ← match text with
    | '.' :: rest => readDigits Char.isDigit rest
    | _ => some ([], text)
  let (exponent, rest) ← match rest with
    | char :: after =>
        if char = 'e' ∨ char = 'E' then
          let (down, digits) := match after with
            | '-' :: digits => (true, digits)
            | '+' :: digits => (false, digits)
            | digits => (false, digits)
          (readDigits Char.isDigit digits).map fun (digits, rest) =>
            let size : Int := valueIn 10 digits
            (if down then -size else size, rest)
        else some (0, rest)
    | [] => some (0, rest)
  if !negative ∧ beyondDouble (whole ++ fraction) (exponent - fraction.length) then none
  else return (.float, rest)

def startsFloatTail : List Char → Bool
  | '.' :: _ => true
  | 'e' :: _ => true
  | 'E' :: _ => true
  | _ => false

def namedFloat? : List Char → Option (List Char)
  | 'i' :: 'n' :: 'f' :: rest => some rest
  | 'n' :: 'a' :: 'n' :: rest => some rest
  | _ => none

def readMagnitude (signed negative : Bool) (text : List Char) : Option (Item × List Char) := do
  match namedFloat? text with
  | some rest => return (.float, rest)
  | none =>
      match signed, text with
      | false, '0' :: 'x' :: rest => readBased 16 rest
      | false, '0' :: 'o' :: rest => readBased 8 rest
      | false, '0' :: 'b' :: rest => readBased 2 rest
      | _, _ =>
          let (digits, rest) ← readPlainDigits text
          if startsFloatTail rest then readFloatTail negative digits rest
          else readSigned negative digits rest

def readFixed (width low high : Nat) : Reader Nat := fun text =>
  let digits := text.take width
  if digits.length = width ∧ digits.all Char.isDigit then
    let value := valueIn 10 digits
    if low ≤ value ∧ value ≤ high then some (value, text.drop width) else none
  else none

def expect (char : Char) : List Char → Option (List Char)
  | head :: rest => if head = char then some rest else none
  | [] => none

def isLeapYear (year : Nat) : Bool :=
  year % 4 = 0 && (year % 100 ≠ 0 || year % 400 = 0)

def daysInMonth (year month : Nat) : Nat :=
  if month = 2 then if isLeapYear year then 29 else 28
  else if month = 4 ∨ month = 6 ∨ month = 9 ∨ month = 11 then 30
  else 31

def readTimeTail (text : List Char) : Option (List Char) := do
  let (_, rest) ← readFixed 2 0 59 text
  let (_, rest) ← readFixed 2 0 60 (← expect ':' rest)
  match rest with
  | '.' :: fraction =>
      match fraction.takeWhile Char.isDigit with
      | [] => some rest
      | _ => some (fraction.dropWhile Char.isDigit)
  | _ => some rest

/-- A time of day: none where none starts, and the inner none where one starts but is not right. -/
def timeOfDay? (text : List Char) : Option (Option (List Char)) := do
  let (_, rest) ← readFixed 2 0 23 text
  return readTimeTail (← expect ':' rest)

def readOffset (text : List Char) : Option (List Char) := do
  match text with
  | [] => some []
  | char :: rest =>
      if char = 'Z' ∨ char = 'z' then some rest
      else if char = '+' ∨ char = '-' then
        let (_, rest) ← readFixed 2 0 23 rest
        let (_, rest) ← readFixed 2 0 59 (← expect ':' rest)
        some rest
      else some text

def readDateTail (year : Nat) (text : List Char) : Option (List Char) := do
  let (month, rest) ← readFixed 2 1 12 text
  let (day, rest) ← readFixed 2 1 31 (← expect '-' rest)
  if daysInMonth year month < day then none
  match rest with
  | [] => some rest
  | mark :: after =>
      if mark = 'T' ∨ mark = 't' ∨ mark = ' ' then
        match timeOfDay? after with
        | none => some rest
        | some tail => readOffset (← tail)
      else some rest

/-- A moment: none where none starts, and the inner none where one starts but is not right. -/
def moment? (text : List Char) : Option (Option (List Char)) :=
  match (do let (year, rest) ← readFixed 4 0 9999 text; return (year, ← expect '-' rest)) with
  | some (year, rest) => some (readDateTail year rest)
  | none => timeOfDay? text

def readScalar : Reader Item := fun text =>
  match moment? text with
  | some rest => rest.map fun rest => (.moment, rest)
  | none =>
      match text with
      | '+' :: rest => readMagnitude true false rest
      | '-' :: rest => readMagnitude true true rest
      | _ => readMagnitude false false text

end FolderWatch.Toml
