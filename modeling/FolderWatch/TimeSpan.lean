/-!
Lengths of time in nanoseconds, and the text they are shown with.
-/

namespace FolderWatch

structure TimeSpan where
  nanos : Nat
  deriving DecidableEq, Repr, Inhabited

namespace TimeSpan

def ofMillis (millis : Nat) : TimeSpan := ⟨millis * 1000000⟩

def ofSeconds (seconds : Nat) : TimeSpan := ⟨seconds * 1000000000⟩

def wholeSeconds (span : TimeSpan) : Nat := span.nanos / 1000000000

def subsecondNanos (span : TimeSpan) : Nat := span.nanos % 1000000000

def wholeMillis (span : TimeSpan) : Nat := span.nanos / 1000000

def dropTrailingZeros (digits : List Char) : List Char :=
  (digits.reverse.dropWhile (· = '0')).reverse

/-- A quotient with the digits after its point padded to a width and then cut after the last that is
not zero. -/
def showDecimal (whole fraction width : Nat) : String :=
  let digits := Nat.toDigits 10 fraction
  let padded := List.replicate (width - digits.length) '0' ++ digits
  let kept := dropTrailingZeros padded
  toString whole ++ if kept.isEmpty then "" else "." ++ String.ofList kept

def text (span : TimeSpan) : String :=
  let nanos := span.nanos
  if 1000000000 ≤ nanos then showDecimal span.wholeSeconds span.subsecondNanos 9 ++ "s"
  else if 1000000 ≤ nanos then showDecimal (nanos / 1000000) (nanos % 1000000) 6 ++ "ms"
  else if 1000 ≤ nanos then showDecimal (nanos / 1000) (nanos % 1000) 3 ++ "µs"
  else toString nanos ++ "ns"

end TimeSpan

end FolderWatch
