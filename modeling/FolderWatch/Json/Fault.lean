/-!
How reading a JSON text fails. Texts are read in one pass, so the first fault met is the answer.
-/

namespace FolderWatch.Json

inductive Fault where
  | malformed
  | mismatched
  | truncated
  deriving DecidableEq, Repr

abbrev Reader (α : Type) := List Char → Except Fault (α × List Char)

def isBlank (char : Char) : Bool :=
  char = ' ' || char = '\n' || char = '\t' || char = '\r'

def skipBlank (text : List Char) : List Char := text.dropWhile isBlank

def expectWord : List Char → List Char → Except Fault (List Char)
  | [], text => .ok text
  | _ :: _, [] => .error .truncated
  | expected :: word, char :: text =>
      if char = expected then expectWord word text else .error .malformed

end FolderWatch.Json
