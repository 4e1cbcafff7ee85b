/-!
Bounds of machine words, and numbers as people write them.
-/

namespace FolderWatch

def wordLimit : Nat := 18446744073709551616

def signedLimit : Nat := 9223372036854775808

/-- Decimal digits after an optional plus sign, no larger than a word. -/
def parseWord? (text : String) : Option UInt64 :=
  let digits := match text.toList with
    | '+' :: rest => rest
    | all => all
  if digits ≠ [] ∧ digits.all Char.isDigit then
    let value := Nat.ofDigitChars 10 digits 0
    if value < wordLimit then some (UInt64.ofNat value) else none
  else none

theorem wordLimit_eq : wordLimit = 2 * signedLimit := rfl

end FolderWatch
