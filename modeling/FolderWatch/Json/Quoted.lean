import FolderWatch.Json.Fault

/-!
String literals. Written ones escape the quote, the backslash and the control characters and leave
all else alone; reading a written literal gives its text back.
-/

namespace FolderWatch.Json

def hexDigit (value : Nat) : Char := Nat.digitChar (value % 16)

def hexValue? (char : Char) : Option Nat :=
  if '0' ≤ char ∧ char ≤ '9' then some (char.toNat - 48)
  else if 'a' ≤ char ∧ char ≤ 'f' then some (char.toNat - 87)
  else if 'A' ≤ char ∧ char ≤ 'F' then some (char.toNat - 55)
  else none

def quoteChar (char : Char) : List Char :=
  if char = '"' then ['\\', '"']
  else if char = '\\' then ['\\', '\\']
  else if char = '\n' then ['\\', 'n']
  else if char = '\t' then ['\\', 't']
  else if char = '\r' then ['\\', 'r']
  else if char = '\x08' then ['\\', 'b']
  else if char = '\x0c' then ['\\', 'f']
  else if char.toNat < 0x20 then
    ['\\', 'u', '0', '0', hexDigit (char.toNat / 16), hexDigit char.toNat]
  else [char]

def quoteChars (chars : List Char) : List Char := chars.flatMap quoteChar

def quote (text : String) : List Char := '"' :: (quoteChars text.toList ++ ['"'])

/-- Four hexadecimal digits. A text of fewer than four bytes has ended too early. -/
def readHex4 : Reader Nat
  | a :: b :: c :: d :: rest =>
      match hexValue? a, hexValue? b, hexValue? c, hexValue? d with
      | some a, some b, some c, some d => .ok (a * 4096 + b * 256 + c * 16 + d, rest)
      | _, _, _, _ => .error .malformed
  | short =>
      if (String.ofList short).utf8ByteSize < 4 then .error .truncated else .error .malformed

/-- The character of a `\u` escape, which takes a pair of escapes above the first plane. -/
def readUnicode (text : List Char) : Except Fault (Char × List Char) := do
  let (unit, rest) ← readHex4 text
  if 0xDC00 ≤ unit ∧ unit ≤ 0xDFFF then .error .malformed
  else if unit < 0xD800 ∨ 0xDBFF < unit then .ok (Char.ofNat unit, rest)
  else match rest with
    | [] => .error .truncated
    | '\\' :: [] => .error .truncated
    | '\\' :: 'u' :: rest => do
        let (second, rest) ← readHex4 rest
        if second < 0xDC00 ∨ 0xDFFF < second then .error .malformed
        else .ok (Char.ofNat (0x10000 + (unit - 0xD800) * 0x400 + (second - 0xDC00)), rest)
    | _ => .error .malformed

def readEscape : Reader Char
  | [] => .error .truncated
  | char :: rest =>
      if char = '"' ∨ char = '\\' ∨ char = '/' then .ok (char, rest)
      else if char = 'b' then .ok ('\x08', rest)
      else if char = 'f' then .ok ('\x0c', rest)
      else if char = 'n' then .ok ('\n', rest)
      else if char = 'r' then .ok ('\r', rest)
      else if char = 't' then .ok ('\t', rest)
      else if char = 'u' then readUnicode rest
      else .error .malformed

theorem readHex4_shorter {text rest : List Char} {value : Nat}
    (read : readHex4 text = .ok (value, rest)) : rest.length < text.length := by
  unfold readHex4 at read
  split at read
  · split at read
    · simp only [Except.ok.injEq, Prod.mk.injEq] at read
      rw [← read.2]
      simp only [List.length_cons]
      omega
    · cases read
  · split at read <;> cases read

theorem readUnicode_shorter {text rest : List Char} {char : Char}
    (read : readUnicode text = .ok (char, rest)) : rest.length < text.length := by
  unfold readUnicode at read
  cases first : readHex4 text with
  | error fault => rw [first] at read; cases read
  | ok result =>
      obtain ⟨unit, afterFirst⟩ := result
      have firstShorter := readHex4_shorter first
      rw [first] at read
      simp only [bind, Except.bind] at read
      split at read
      · cases read
      · split at read
        · simp only [Except.ok.injEq, Prod.mk.injEq] at read
          rw [← read.2]
          exact firstShorter
        · split at read
          · cases read
          · cases read
          · rename_i afterMark
            cases second : readHex4 afterMark with
            | error fault => rw [second] at read; cases read
            | ok result =>
                obtain ⟨low, afterSecond⟩ := result
                have secondShorter := readHex4_shorter second
                rw [second] at read
                simp only at read
                split at read
                · cases read
                · simp only [Except.ok.injEq, Prod.mk.injEq] at read
                  rw [← read.2]
                  simp only [List.length_cons] at firstShorter
                  omega
          · cases read

theorem readEscape_shorter {text rest : List Char} {char : Char}
    (read : readEscape text = .ok (char, rest)) : rest.length < text.length := by
  cases text with
  | nil => simp [readEscape] at read
  | cons head tail =>
      have plain {first second : Char}
          (equal : (Except.ok (first, tail) : Except Fault (Char × List Char)) =
            .ok (second, rest)) : rest.length < (head :: tail).length := by
        simp only [Except.ok.injEq, Prod.mk.injEq] at equal
        rw [← equal.2]
        simp
      simp only [readEscape] at read
      repeat' split at read
      all_goals first
        | exact plain read
        | exact Nat.lt_succ_of_lt (readUnicode_shorter read)
        | cases read

def readQuotedChars (text : List Char) : Except Fault (List Char × List Char) :=
  match text with
  | [] => .error .truncated
  | char :: rest =>
      if char = '"' then .ok ([], rest)
      else if char = '\\' then
        match step : readEscape rest with
        | .error fault => .error fault
        | .ok (escaped, after) =>
            have := readEscape_shorter step
            match readQuotedChars after with
            | .error fault => .error fault
            | .ok (chars, end_) => .ok (escaped :: chars, end_)
      else if char.toNat < 0x20 then .error .malformed
      else match readQuotedChars rest with
        | .error fault => .error fault
        | .ok (chars, end_) => .ok (char :: chars, end_)
termination_by text.length

def readQuoted (text : List Char) : Except Fault (String × List Char) := do
  let (chars, rest) ← readQuotedChars text
  .ok (String.ofList chars, rest)

/-- Passes over a literal. The units of its `\u` escapes need not pair up. -/
def skipQuoted : List Char → Except Fault (List Char)
  | [] => .error .truncated
  | '"' :: rest => .ok rest
  | '\\' :: [] => .error .truncated
  | '\\' :: 'u' :: rest =>
      match rest with
      | a :: b :: c :: d :: after =>
          match readHex4 [a, b, c, d] with
          | .ok _ => skipQuoted after
          | .error fault => .error fault
      | short => (readHex4 short).map Prod.snd
  | '\\' :: char :: rest =>
      if char ∈ ['"', '\\', '/', 'b', 'f', 'n', 'r', 't'] then skipQuoted rest
      else .error .malformed
  | char :: rest => if char.toNat < 0x20 then .error .malformed else skipQuoted rest

theorem readQuotedChars_escape {text after rest : List Char} {char : Char} {chars : List Char}
    (escape : readEscape text = .ok (char, after))
    (tail : readQuotedChars after = .ok (chars, rest)) :
    readQuotedChars ('\\' :: text) = .ok (char :: chars, rest) := by
  rw [readQuotedChars]
  simp only [Char.reduceEq, if_false, if_true]
  split
  · simp_all
  · rename_i read
    rw [escape] at read
    simp only [Except.ok.injEq, Prod.mk.injEq] at read
    obtain ⟨rfl, rfl⟩ := read
    simp [tail]

theorem readQuotedChars_plain {char : Char} {text rest chars : List Char} (notQuote : char ≠ '"')
    (notEscape : char ≠ '\\') (printable : ¬ char.toNat < 0x20)
    (tail : readQuotedChars text = .ok (chars, rest)) :
    readQuotedChars (char :: text) = .ok (char :: chars, rest) := by
  rw [readQuotedChars]
  simp only [notQuote, notEscape, printable, if_false, tail]

theorem readEscape_control {char : Char} (control : char.toNat < 0x20) (rest : List Char) :
    readEscape ('u' :: '0' :: '0' :: hexDigit (char.toNat / 16) :: hexDigit char.toNat :: rest) =
      .ok (char, rest) := by
  obtain ⟨value, bound, rfl⟩ : ∃ value, value < 32 ∧ char = Char.ofNat value :=
    ⟨char.toNat, control, by simp⟩
  have all : ∀ value < 32,
      hexValue? (hexDigit ((Char.ofNat value).toNat / 16)) = some (value / 16) ∧
      hexValue? (hexDigit (Char.ofNat value).toNat) = some (value % 16) := by decide
  obtain ⟨high, low⟩ := all value bound
  have zero : hexValue? '0' = some 0 := by decide
  simp only [readEscape, readUnicode, readHex4, zero, high, low, bind, Except.bind, Char.reduceEq,
    or_self, if_false, if_true]
  have unit : 0 * 4096 + 0 * 256 + value / 16 * 16 + value % 16 = value := by omega
  rw [unit, if_neg (by omega), if_pos (by omega)]

theorem readQuotedChars_quoteChar (char : Char) {text rest chars : List Char}
    (tail : readQuotedChars text = .ok (chars, rest)) :
    readQuotedChars (quoteChar char ++ text) = .ok (char :: chars, rest) := by
  unfold quoteChar
  repeat' split
  all_goals try (subst_vars; exact readQuotedChars_escape rfl tail)
  · rename_i control
    exact readQuotedChars_escape (readEscape_control control text) tail
  · rename_i notQuote notEscape _ _ _ _ _ printable
    exact readQuotedChars_plain notQuote notEscape printable tail

theorem readQuotedChars_quoteChars (chars rest : List Char) :
    readQuotedChars (quoteChars chars ++ '"' :: rest) = .ok (chars, rest) := by
  induction chars with
  | nil => simp [quoteChars, readQuotedChars]
  | cons char chars ih =>
      have := readQuotedChars_quoteChar char ih
      simpa [quoteChars] using this

/-- A written literal reads back as its text. -/
theorem readQuoted_quote (text : String) (rest : List Char) :
    readQuoted ((quote text).tail ++ rest) = .ok (text, rest) := by
  have := readQuotedChars_quoteChars text.toList rest
  simp [readQuoted, quote, this, bind, Except.bind]

end FolderWatch.Json
