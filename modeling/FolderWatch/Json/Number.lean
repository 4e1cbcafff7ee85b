import FolderWatch.Json.Fault
import FolderWatch.Word

/-!
Number literals. Whole numbers of one word are kept exactly; every other number only matters as
being none, unless it is too large for a double, which is a fault of its own.
-/

namespace FolderWatch.Json

inductive Number where
  | natural (value : Nat)
  | negative (value : Nat)
  /-- Written with a fraction or an exponent, minus zero, or beyond one word. -/
  | fraction
  deriving DecidableEq, Repr

def digitValue (char : Char) : Nat := char.toNat - '0'.toNat

/-- Digits appended to a word, and how many of them no longer fit. -/
def appendDigits (word : Nat) (digits : List Char) : Nat × Nat :=
  digits.foldl (fun (word, dropped) digit =>
    if dropped = 0 ∧ word * 10 + digitValue digit < wordLimit then
      (word * 10 + digitValue digit, 0)
    else (word, dropped + 1)) (word, 0)

/-- A natural number rounded to the 53 binary digits of a double, ties to even. -/
def roundToDouble (value : Nat) : Nat :=
  let spare := value.log2 + 1 - 53
  let unit := Nat.pow 2 spare
  let low := value % unit
  let base := value - low
  if 2 * low < unit ∨ (2 * low = unit ∧ base / unit % 2 = 0) then base else base + unit

def overflowsDouble (word : Nat) (exponent : Int) : Bool :=
  if word = 0 then false
  else if exponent > 308 then true
  else if exponent < 0 then false
  else
    Nat.pow 2 1024 - Nat.pow 2 970 ≤ roundToDouble word * roundToDouble (Nat.pow 10 exponent.toNat)

def scaled (word : Nat) (exponent : Int) (rest : List Char) : Except Fault (Number × List Char) :=
  if overflowsDouble word exponent then .error .malformed else .ok (.fraction, rest)

def readExponent (word : Nat) (exponent : Int) (text : List Char) :
    Except Fault (Number × List Char) :=
  let (down, text) := match text with
    | '+' :: rest => (false, rest)
    | '-' :: rest => (true, rest)
    | _ => (false, text)
  match text with
  | [] => .error .truncated
  | char :: _ =>
      if char.isDigit then
        let shift : Int := Nat.ofDigitChars 10 (text.takeWhile Char.isDigit) 0
        scaled word (if down then exponent - shift else exponent + shift)
          (text.dropWhile Char.isDigit)
      else .error .malformed

def readDecimals (word : Nat) (exponent : Int) (text : List Char) :
    Except Fault (Number × List Char) :=
  let digits := text.takeWhile Char.isDigit
  let rest := text.dropWhile Char.isDigit
  let (word, dropped) := appendDigits word digits
  let exponent := exponent - (digits.length - dropped : Nat)
  match digits, rest with
  | [], [] => .error .truncated
  | [], _ => .error .malformed
  | _, 'e' :: rest => readExponent word exponent rest
  | _, 'E' :: rest => readExponent word exponent rest
  | _, rest => scaled word exponent rest

def signed (negative : Bool) (word : Nat) : Number :=
  if !negative then .natural word
  else if word = 0 ∨ signedLimit < word then .fraction
  else .negative word

def readNumber (negative : Bool) (text : List Char) : Except Fault (Number × List Char) :=
  let digits := text.takeWhile Char.isDigit
  let rest := text.dropWhile Char.isDigit
  match text, digits with
  | [], _ => .error .truncated
  | _, [] => .error .malformed
  | '0' :: _, _ :: _ :: _ => .error .malformed
  | _, _ =>
      let (word, dropped) := appendDigits 0 digits
      match rest with
      | '.' :: rest => readDecimals word dropped rest
      | 'e' :: rest => readExponent word dropped rest
      | 'E' :: rest => readExponent word dropped rest
      | rest => if dropped = 0 then .ok (signed negative word, rest) else scaled word dropped rest

def skipExponent (text : List Char) : Except Fault (List Char) :=
  let digits := match text with
    | '+' :: rest => rest
    | '-' :: rest => rest
    | _ => text
  match digits.takeWhile Char.isDigit with
  | [] => .error .malformed
  | _ => .ok (digits.dropWhile Char.isDigit)

def skipNumber (text : List Char) : Except Fault (List Char) :=
  let digits := text.takeWhile Char.isDigit
  let rest := text.dropWhile Char.isDigit
  match digits with
  | [] => .error .malformed
  | '0' :: _ :: _ => .error .malformed
  | _ =>
      match rest with
      | '.' :: rest =>
          match rest.takeWhile Char.isDigit, rest.dropWhile Char.isDigit with
          | [], _ => .error .malformed
          | _, 'e' :: rest => skipExponent rest
          | _, 'E' :: rest => skipExponent rest
          | _, rest => .ok rest
      | 'e' :: rest => skipExponent rest
      | 'E' :: rest => skipExponent rest
      | rest => .ok rest

def natural (value : Nat) : List Char := Nat.toDigits 10 value

def integer (value : Int) : List Char :=
  if value < 0 then '-' :: natural value.natAbs else natural value.natAbs

end FolderWatch.Json
