import FolderWatch.Json.Quoted
import FolderWatch.Json.Number

/-!
Readers of values. Structures may be written as objects or as arrays of their fields in order;
object members that name no field are passed over, and a name given twice is a mismatch.
-/

namespace FolderWatch.Json

def wrongType (text : List Char) : Fault :=
  let known (result : Except Fault (List Char)) : Fault :=
    match result with
    | .error fault => fault
    | .ok _ => .mismatched
  match text with
  | 'n' :: rest => known (expectWord ['u', 'l', 'l'] rest)
  | 't' :: rest => known (expectWord ['r', 'u', 'e'] rest)
  | 'f' :: rest => known (expectWord ['a', 'l', 's', 'e'] rest)
  | '-' :: rest => known ((readNumber true rest).map Prod.snd)
  | '"' :: rest => known ((readQuotedChars rest).map Prod.snd)
  | '[' :: _ => .mismatched
  | '{' :: _ => .mismatched
  | char :: _ =>
      if char.isDigit then known ((readNumber false text).map Prod.snd) else .malformed
  | [] => .truncated

def readString : Reader String := fun text =>
  match skipBlank text with
  | [] => .error .truncated
  | '"' :: rest => readQuoted rest
  | other => .error (wrongType other)

def readNumeral : Reader Number := fun text =>
  match skipBlank text with
  | [] => .error .truncated
  | '-' :: rest => readNumber true rest
  | char :: rest =>
      if char.isDigit then readNumber false (char :: rest)
      else .error (wrongType (char :: rest))

def readUInt64 : Reader UInt64 := fun text => do
  match ← readNumeral text with
  | (.natural value, rest) =>
      if value < wordLimit then .ok (UInt64.ofNat value, rest) else .error .mismatched
  | _ => .error .mismatched

def readInt64 : Reader Int64 := fun text => do
  match ← readNumeral text with
  | (.natural value, rest) =>
      if value < signedLimit then .ok (Int64.ofNat value, rest) else .error .mismatched
  | (.negative value, rest) => .ok (Int64.ofInt (-value), rest)
  | _ => .error .mismatched

def readBool : Reader Bool := fun text =>
  match skipBlank text with
  | [] => .error .truncated
  | 't' :: rest => return (true, ← expectWord ['r', 'u', 'e'] rest)
  | 'f' :: rest => return (false, ← expectWord ['a', 'l', 's', 'e'] rest)
  | other => .error (wrongType other)

def readOption {α : Type} (read : Reader α) : Reader (Option α) := fun text =>
  match skipBlank text with
  | 'n' :: rest => return (none, ← expectWord ['u', 'l', 'l'] rest)
  | other => do
      let (value, rest) ← read other
      return (some value, rest)

def expectColon (text : List Char) : Except Fault (List Char) :=
  match skipBlank text with
  | [] => .error .truncated
  | ':' :: rest => .ok rest
  | _ => .error .malformed

/-- One of some names, as a string or as an object whose only member has that name and is null. -/
def readName {α : Type} (named : String → Option α) : Reader α := fun text =>
  let choose (text : List Char) : Except Fault (α × List Char) := do
    let (name, rest) ← readString text
    match named name with
    | some value => .ok (value, rest)
    | none => .error .mismatched
  match skipBlank text with
  | [] => .error .truncated
  | '"' :: rest => choose ('"' :: rest)
  | '{' :: rest => do
      let (value, rest) ← choose rest
      let rest ← expectColon rest
      let rest ← match skipBlank rest with
        | [] => .error .truncated
        | 'n' :: rest => expectWord ['u', 'l', 'l'] rest
        | other => .error (wrongType other)
      match skipBlank rest with
      | [] => .error .truncated
      | '}' :: rest => .ok (value, rest)
      | _ => .error .malformed
  | _ => .error .malformed

def nextElement (first : Bool) (text : List Char) : Except Fault (Option (List Char)) :=
  match skipBlank text with
  | [] => .error .truncated
  | ']' :: _ => .ok none
  | ',' :: rest =>
      if first then .ok (some (',' :: rest))
      else match skipBlank rest with
        | [] => .error .truncated
        | ']' :: _ => .error .malformed
        | other => .ok (some other)
  | other => if first then .ok (some other) else .error .malformed

def readElement {α : Type} (first : Bool) (read : Reader α) : Reader α := fun text => do
  match ← nextElement first text with
  | none => .error .mismatched
  | some rest => read rest

def readElementOr {α : Type} (first : Bool) (fallback : α) (read : Reader α) : Reader α :=
  fun text => do
    match ← nextElement first text with
    | none => .ok (fallback, text)
    | some rest => read rest

def closeArray (text : List Char) : Except Fault (List Char) :=
  match skipBlank text with
  | [] => .error .truncated
  | ']' :: rest => .ok rest
  | _ => .error .malformed

/-- The members of an object whose brace is open, up to and with its closing brace. `member` reads
what follows a name. -/
def readMembers {σ : Type} (member : σ → String → Reader σ) :
    (fuel : Nat) → (first : Bool) → σ → Reader σ
  | 0, _, _ => fun _ => .error .truncated
  | fuel + 1, first, state => fun text =>
      let continue_ (text : List Char) : Except Fault (σ × List Char) := do
        let (name, rest) ← readQuoted text
        let (state, rest) ← member state name rest
        readMembers member fuel false state rest
      match skipBlank text with
      | [] => .error .truncated
      | '}' :: rest => .ok (state, rest)
      | ',' :: rest =>
          if first then .error .malformed
          else match skipBlank rest with
            | [] => .error .truncated
            | '"' :: rest => continue_ rest
            | _ => .error .malformed
      | '"' :: rest => if first then continue_ rest else .error .malformed
      | _ => .error .malformed

def readStructure {σ α : Type} (elements : Reader α) (start : σ) (member : σ → String → Reader σ)
    (finish : σ → Except Fault α) : Reader α := fun text =>
  match skipBlank text with
  | [] => .error .truncated
  | '[' :: rest => do
      let (value, rest) ← elements rest
      return (value, ← closeArray rest)
  | '{' :: rest => do
      let (state, rest) ← readMembers member rest.length true start rest
      return (← finish state, rest)
  | other => .error (wrongType other)

def readField {α : Type} (given : Option α) (read : Reader α) : Reader (Option α) := fun text =>
  if given.isSome then .error .mismatched
  else do
    let rest ← expectColon text
    let (value, rest) ← read rest
    return (some value, rest)

def required {α : Type} (given : Option α) : Except Fault α :=
  match given with
  | some value => .ok value
  | none => .error .mismatched

inductive Bracket where
  | square
  | curly
  deriving DecidableEq, Repr

inductive Passing where
  | value
  | ended
  | opened
  | member
  deriving DecidableEq, Repr

def skipFrom : (fuel : Nat) → List Bracket → Passing → List Char → Except Fault (List Char)
  | 0, _, _, _ => .error .truncated
  | fuel + 1, brackets, .value, text => do
      let ended (result : Except Fault (List Char)) : Except Fault (List Char) := do
        skipFrom fuel brackets .ended (← result)
      match skipBlank text with
      | [] => .error .truncated
      | 'n' :: rest => ended (expectWord ['u', 'l', 'l'] rest)
      | 't' :: rest => ended (expectWord ['r', 'u', 'e'] rest)
      | 'f' :: rest => ended (expectWord ['a', 'l', 's', 'e'] rest)
      | '-' :: rest => ended (skipNumber rest)
      | '"' :: rest => ended (skipQuoted rest)
      | '[' :: rest => skipFrom fuel (.square :: brackets) .opened rest
      | '{' :: rest => skipFrom fuel (.curly :: brackets) .opened rest
      | char :: rest =>
          if char.isDigit then ended (skipNumber (char :: rest)) else .error .malformed
  | _ + 1, [], _, text => .ok text
  | fuel + 1, bracket :: outer, .member, text => do
      if bracket = .square then skipFrom fuel (bracket :: outer) .value text
      else match skipBlank text with
        | [] => .error .truncated
        | '"' :: rest => skipFrom fuel (bracket :: outer) .value (← expectColon (← skipQuoted rest))
        | _ => .error .malformed
  | fuel + 1, bracket :: outer, passing, text =>
      match skipBlank text, bracket with
      | [], _ => .error .truncated
      | ']' :: rest, .square => skipFrom fuel outer .ended rest
      | '}' :: rest, .curly => skipFrom fuel outer .ended rest
      | ',' :: rest, _ =>
          if passing = .ended then skipFrom fuel (bracket :: outer) .member rest
          else skipFrom fuel (bracket :: outer) .member (',' :: rest)
      | other, _ =>
          if passing = .ended then .error .malformed
          else skipFrom fuel (bracket :: outer) .member other

def skipValue (text : List Char) : Except Fault (List Char) :=
  skipFrom (4 * text.length + 1) [] .value text

def skipMember {σ : Type} (state : σ) : Reader σ := fun text => do
  return (state, ← skipValue (← expectColon text))

def readAll {α : Type} (read : Reader α) (text : String) : Except Fault α := do
  let (value, rest) ← read text.toList
  match skipBlank rest with
  | [] => .ok value
  | _ => .error .malformed

end FolderWatch.Json
