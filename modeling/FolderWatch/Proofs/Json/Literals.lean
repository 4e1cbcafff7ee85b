import FolderWatch.Json.Reader

/-!
Written literals read back. A reader takes the text of a value, in front of whatever may follow a
value in compact JSON, and leaves what follows.
-/

namespace FolderWatch.Json

/-- What may follow a value: nothing, or a comma or a brace. -/
def Ends (rest : List Char) : Prop := ∀ char ∈ rest.head?, char = ',' ∨ char = '}'

def Reads {α : Type} (read : Reader α) (text : List Char) (value : α) : Prop :=
  ∀ rest, Ends rest → read (text ++ rest) = .ok (value, rest)

theorem ends_nil : Ends [] := by simp [Ends]

theorem ends_comma (rest : List Char) : Ends (',' :: rest) := by simp [Ends]

theorem ends_brace (rest : List Char) : Ends ('}' :: rest) := by simp [Ends]

theorem skipBlank_cons {char : Char} (solid : isBlank char = false) (rest : List Char) :
    skipBlank (char :: rest) = char :: rest := by
  simp [skipBlank, List.dropWhile, solid]

theorem Reads.readAll {α : Type} {read : Reader α} {text : List Char} {value : α}
    (reads : Reads read text value) : readAll read (String.ofList text) = .ok value := by
  have alone := reads [] ends_nil
  rw [List.append_nil] at alone
  simp [Json.readAll, String.toList_ofList, alone, bind, Except.bind, skipBlank]

section Digits

theorem natural_small {value : Nat} (small : value < 10) :
    natural value = [Nat.digitChar value] :=
  Nat.toDigits_of_lt_base small

theorem natural_large {value : Nat} (large : 10 ≤ value) :
    natural value = natural (value / 10) ++ [Nat.digitChar (value % 10)] :=
  Nat.toDigits_of_base_le (by decide) large

theorem isDigit_of_mem_natural {value : Nat} {char : Char} (member : char ∈ natural value) :
    char.isDigit :=
  Nat.isDigit_of_mem_toDigits (by decide) (by decide) member

theorem solid_of_isDigit {char : Char} (isDigit : char.isDigit) : isBlank char = false := by
  have notBlank : char ≠ ' ' ∧ char ≠ '\n' ∧ char ≠ '\t' ∧ char ≠ '\r' := by
    refine ⟨?_, ?_, ?_, ?_⟩ <;> (rintro rfl; cases isDigit)
  simp [isBlank, notBlank]

/-- Only zero is written with a leading zero. -/
theorem natural_cons (value : Nat) :
    ∃ digit more, natural value = digit :: more ∧ (digit = '0' → value = 0) := by
  induction value using Nat.strongRecOn with
  | ind value ih =>
      by_cases small : value < 10
      · have zero : ∀ value < 10, Nat.digitChar value = '0' → value = 0 := by decide
        exact ⟨_, _, natural_small small, zero value small⟩
      · obtain ⟨digit, more, written, zero⟩ := ih (value / 10) (by omega)
        refine ⟨digit, more ++ [Nat.digitChar (value % 10)], ?_, ?_⟩
        · rw [natural_large (by omega), written, List.cons_append]
        · intro leading
          have := zero leading
          omega

theorem digitValue_digitChar {value : Nat} (small : value < 10) :
    digitValue (Nat.digitChar value) = value := by
  have all : ∀ value < 10, digitValue (Nat.digitChar value) = value := by decide
  exact all value small

theorem appendDigits_natural {value : Nat} (bound : value < wordLimit) :
    appendDigits 0 (natural value) = (value, 0) := by
  induction value using Nat.strongRecOn with
  | ind value ih =>
      by_cases small : value < 10
      · simp [appendDigits, natural_small small, digitValue_digitChar small, bound]
      · have front := ih (value / 10) (by omega) (by omega)
        have whole : value / 10 * 10 + value % 10 = value := by omega
        have last := digitValue_digitChar (show value % 10 < 10 by omega)
        rw [natural_large (by omega), appendDigits, List.foldl_append, ← appendDigits, front]
        simp [last, whole, bound]

theorem takeWhile_digits (value : Nat) {rest : List Char} (ends : Ends rest) :
    (natural value ++ rest).takeWhile Char.isDigit = natural value := by
  have stops : rest.takeWhile Char.isDigit = [] := by
    cases rest with
    | nil => rfl
    | cons char rest => rcases ends char rfl with rfl | rfl <;> rfl
  rw [List.takeWhile_append_of_pos fun _ => isDigit_of_mem_natural, stops, List.append_nil]

theorem dropWhile_digits (value : Nat) {rest : List Char} (ends : Ends rest) :
    (natural value ++ rest).dropWhile Char.isDigit = rest := by
  have stops : rest.dropWhile Char.isDigit = rest := by
    cases rest with
    | nil => rfl
    | cons char rest => rcases ends char rfl with rfl | rfl <;> rfl
  rw [List.dropWhile_append_of_pos fun _ => isDigit_of_mem_natural, stops]

theorem readNumber_natural (negative : Bool) {value : Nat} (bound : value < wordLimit) :
    Reads (readNumber negative) (natural value) (signed negative value) := by
  intro rest ends
  have word := appendDigits_natural bound
  obtain ⟨digit, more, written, zero⟩ := natural_cons value
  have single : digit = '0' → more = [] := by
    intro leading
    rw [zero leading, natural_small (by decide)] at written
    exact (List.cons.inj written).2.symm
  have next : ∀ char ∈ rest.head?, char ≠ '.' ∧ char ≠ 'e' ∧ char ≠ 'E' := by
    intro char first
    rcases ends char first with rfl | rfl <;> decide
  have taken := takeWhile_digits value ends
  have left := dropWhile_digits value ends
  rw [written] at word taken left
  -- No digit follows a leading zero, and neither a fraction nor an exponent comes after the digits.
  unfold readNumber
  simp only [written, taken, left, word]
  split
  · rename_i empty
    cases empty
  · rename_i empty _
    cases empty
  · rename_i leading several
    simp only [List.cons_append, List.cons.injEq] at leading several
    rw [single leading.1] at several
    cases several.2
  · split
    · exact absurd rfl (next '.' rfl).1
    · exact absurd rfl (next 'e' rfl).2.1
    · exact absurd rfl (next 'E' rfl).2.2
    · rfl

theorem readNumeral_natural {value : Nat} (bound : value < wordLimit) :
    Reads readNumeral (natural value) (.natural value) := by
  intro rest ends
  have read := readNumber_natural false bound rest ends
  obtain ⟨digit, more, written, -⟩ := natural_cons value
  have isDigit : digit.isDigit := isDigit_of_mem_natural (by rw [written]; exact List.mem_cons_self)
  rw [written, List.cons_append] at read ⊢
  unfold readNumeral
  rw [skipBlank_cons (solid_of_isDigit isDigit)]
  split
  · rename_i empty
    cases empty
  · rename_i minus
    cases minus
    cases isDigit
  · rename_i first
    cases first
    simp only [isDigit, if_true]
    exact read

theorem readNumeral_negative {value : Nat} (positive : value ≠ 0) (bound : value ≤ signedLimit) :
    Reads readNumeral ('-' :: natural value) (.negative value) := by
  intro rest ends
  have fits : value < wordLimit := by
    have := wordLimit_eq
    have : 0 < signedLimit := by decide
    omega
  have read := readNumber_natural true fits rest ends
  have kept : signed true value = .negative value := by
    simp [signed, positive, Nat.not_lt.mpr bound]
  rw [kept] at read
  exact read

theorem readUInt64_natural (value : UInt64) : Reads readUInt64 (natural value.toNat) value := by
  intro rest ends
  have bound : value.toNat < wordLimit := value.toNat_lt
  simp [readUInt64, readNumeral_natural bound rest ends, bound, bind, Except.bind]

theorem readInt64_integer (value : Int64) : Reads readInt64 (integer value.toInt) value := by
  intro rest ends
  have low := value.le_toInt
  have high := value.toInt_lt
  have limit : (signedLimit : Int) = 2 ^ 63 := by decide
  have twice := wordLimit_eq
  by_cases negative : value.toInt < 0
  · have positive : value.toInt.natAbs ≠ 0 := by omega
    have fits : value.toInt.natAbs ≤ signedLimit := by omega
    have read := readNumeral_negative positive fits rest ends
    have back : -(value.toInt.natAbs : Int) = value.toInt := by omega
    simp only [readInt64, integer, negative, if_true, read, bind, Except.bind, back,
      Int64.ofInt_toInt]
  · have fits : value.toInt.natAbs < signedLimit := by omega
    have bound : value.toInt.natAbs < wordLimit := by omega
    have read := readNumeral_natural bound rest ends
    have back : (value.toInt.natAbs : Int) = value.toInt := by omega
    have same : Int64.ofNat value.toInt.natAbs = value := by
      rw [← Int64.ofInt_eq_ofNat, back, Int64.ofInt_toInt]
    simp only [readInt64, integer, negative, if_false, read, fits, if_true, bind, Except.bind, same]

end Digits

theorem readString_quote (text : String) : Reads readString (quote text) text := by
  intro rest _
  exact readQuoted_quote text rest

theorem readName_quote {α : Type} {named : String → Option α} {name : String} {value : α}
    (known : named name = some value) : Reads (readName named) (quote name) value := by
  intro rest ends
  have read := readString_quote name rest ends
  have first : quote name ++ rest = '"' :: ((quote name).tail ++ rest) := rfl
  rw [first] at read ⊢
  unfold readName
  rw [skipBlank_cons (by decide)]
  simp [read, known, bind, Except.bind]

section Options

variable {α : Type} {read : Reader α}

theorem readOption_none : Reads (readOption read) "null".toList none := by
  intro rest _
  rfl

theorem readOption_some {char : Char} {text : List Char} {value : α}
    (reads : Reads read (char :: text) value) (solid : isBlank char = false)
    (notNull : char ≠ 'n') :
    Reads (readOption read) (char :: text) (some value) := by
  intro rest ends
  have inner := reads rest ends
  rw [List.cons_append] at inner ⊢
  unfold readOption
  rw [skipBlank_cons solid]
  split
  · rename_i null
    cases null
    exact absurd rfl notNull
  · simp [inner, bind, Except.bind]
    rfl

end Options

end FolderWatch.Json
