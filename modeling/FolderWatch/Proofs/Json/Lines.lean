import FolderWatch.Change.Line
import FolderWatch.Proofs.Json.Records

/-!
A stream of changes, one JSON text a line. No JSON form has a line end in it, for whatever a name is
made of it is escaped where it is written, so each line is the whole of one change and reads back as
that change.
-/

namespace FolderWatch

namespace Json

/-- A text within one line. -/
def Unbroken (text : List Char) : Prop := '\n' ∉ text

instance (text : List Char) : Decidable (Unbroken text) := inferInstanceAs (Decidable (_ ∉ text))

variable {first second : List Char}

theorem unbroken_append : Unbroken (first ++ second) ↔ Unbroken first ∧ Unbroken second := by
  simp [Unbroken]

theorem unbroken_cons {char : Char} :
    Unbroken (char :: second) ↔ '\n' ≠ char ∧ Unbroken second := by
  simp [Unbroken]

theorem unbroken_quoteChar (char : Char) : Unbroken (quoteChar char) := by
  have digit (value : Nat) : '\n' ≠ hexDigit value := by
    have all : ∀ digit < 16, '\n' ≠ Nat.digitChar digit := by decide
    exact all _ (Nat.mod_lt _ (by decide))
  unfold quoteChar
  repeat' split
  all_goals try decide
  · simp [Unbroken, digit]
  · simp_all [Unbroken, eq_comm]

theorem unbroken_quote (text : String) : Unbroken (quote text) := by
  rw [quote, unbroken_cons, unbroken_append]
  refine ⟨by decide, ?_, by decide⟩
  intro broken
  obtain ⟨char, -, inside⟩ := List.mem_flatMap.mp broken
  exact unbroken_quoteChar char inside

theorem unbroken_natural (value : Nat) : Unbroken (natural value) := by
  intro broken
  have isDigit := isDigit_of_mem_natural broken
  cases isDigit

theorem unbroken_integer (value : Int) : Unbroken (integer value) := by
  unfold integer
  split
  · exact unbroken_cons.mpr ⟨by decide, unbroken_natural _⟩
  · exact unbroken_natural _

theorem unbroken_member {value : List Char} (name : String) (within : Unbroken value) :
    Unbroken (member name value) :=
  unbroken_append.mpr ⟨unbroken_quote name, unbroken_cons.mpr ⟨by decide, within⟩⟩

theorem unbroken_object {members : List (List Char)} (each : ∀ member ∈ members, Unbroken member) :
    Unbroken (object members) := by
  rw [object, unbroken_cons, unbroken_append]
  refine ⟨by decide, ?_, by decide⟩
  induction members with
  | nil => simp [Unbroken]
  | cons first more ih =>
      cases more with
      | nil => simpa using each first (by simp)
      | cons second more =>
          rw [List.intercalate_cons_cons, unbroken_append, unbroken_append]
          exact ⟨⟨each first (by simp), by decide⟩, ih fun member held => each member (by simp [held])⟩

/-- Lines written one after the other are what their text splits into, before the nothing behind the
last line end. -/
theorem splitOn_lines {lines : List (List Char)} (each : ∀ line ∈ lines, Unbroken line) :
    (lines.flatMap (· ++ ['\n'])).splitOn '\n' = lines ++ [[]] := by
  induction lines with
  | nil => rfl
  | cons line lines ih =>
      have whole : ∀ char ∈ line, (char == '\n') = false := by
        intro char member
        rw [beq_eq_false_iff_ne]
        rintro rfl
        exact each line (by simp) member
      have rest := ih fun line held => each line (by simp [held])
      rw [List.splitOn] at rest ⊢
      rw [List.flatMap_cons, List.append_assoc, List.singleton_append,
        List.splitOnP_append_cons _ _ (by rfl), List.splitOnP_eq_singleton whole, rest]
      rfl

end Json

open Json

theorem Path.unbroken_json {path : Path} {text : List Char} (written : path.toJson? = some text) :
    Unbroken text := by
  obtain ⟨spelling, -, rfl⟩ := Option.map_eq_some_iff.mp written
  exact unbroken_quote spelling

theorem FileRecord.unbroken_json {record : FileRecord} {text : List Char}
    (written : record.toJson? = some text) : Unbroken text := by
  obtain ⟨path, pathWritten, rfl⟩ := toJson?_eq_some.mp written
  refine unbroken_object ?_
  simp only [List.forall_mem_cons]
  exact ⟨unbroken_member _ (Path.unbroken_json pathWritten), unbroken_member _ (unbroken_natural _),
    unbroken_member _ (unbroken_integer _), by simp⟩

namespace Change

theorem unbroken_recordJson {found : Option FileRecord} {text : List Char}
    (written : recordJson? found = some text) : Unbroken text := by
  cases found with
  | none =>
      cases written
      decide
  | some record => exact FileRecord.unbroken_json written

theorem unbroken_json {change : Change} {text : List Char} (written : change.toJson? = some text) :
    Unbroken text := by
  obtain ⟨before, beforeWritten, after, afterWritten, rfl⟩ := toJson?_eq_some.mp written
  refine unbroken_object ?_
  simp only [List.forall_mem_cons]
  exact ⟨unbroken_member _ (unbroken_quote _), unbroken_member _ (unbroken_recordJson beforeWritten),
    unbroken_member _ (unbroken_recordJson afterWritten), by simp⟩

theorem not_blank_json {change : Change} : change.toJson? ≠ some [] := by
  intro written
  obtain ⟨before, -, after, -, empty⟩ := toJson?_eq_some.mp written
  simp [object] at empty

instance : DecidablePred IsText := fun _ => decidable_of_iff _ isSome_toJson?

theorem output_append (format : LineFormat) (coloured : Bool) (first second : List Change) :
    output format coloured (first ++ second) =
      output format coloured first ++ output format coloured second := by
  simp [output, String.join_append]

theorem toList_output (coloured : Bool) (changes : List Change) :
    (output .json coloured changes).toList = (changes.filterMap toJson?).flatMap (· ++ ['\n']) := by
  induction changes with
  | nil => rfl
  | cons change changes ih =>
      rw [← List.singleton_append, output_append, String.toList_append, ih]
      cases written : change.toJson? <;> simp [output, line?, written]

theorem readAll_lines (changes : List Change) :
    (changes.filterMap toJson?).map (fun line => readAll readJson (String.ofList line)) =
      (changes.filter (IsText ·)).map .ok := by
  induction changes with
  | nil => rfl
  | cons change changes ih =>
      cases written : change.toJson? with
      | none =>
          have unwritable : ¬change.IsText := by simp [← isSome_toJson?, written]
          rw [List.filterMap_cons_none written, List.filter_cons_of_neg (by simpa using unwritable), ih]
      | some text =>
          have writable : change.IsText := by simp [← isSome_toJson?, written]
          rw [List.filterMap_cons_some written, List.filter_cons_of_pos (by simpa using writable),
            List.map_cons, List.map_cons, ih, (reads_json written).readAll]

/-- A stream of changes in JSON reads back line by line as those of the changes that have a JSON form,
whatever is in their names. A change that has none adds nothing to the stream, and what is written
later leaves what was written before as it is. -/
theorem output_lines_read_back (coloured : Bool) (changes : List Change) :
    (∃ lines, (output .json coloured changes).toList.splitOn '\n' = lines ++ [[]] ∧
      (∀ line ∈ lines, line ≠ []) ∧
      lines.map (fun line => readAll readJson (String.ofList line)) =
        (changes.filter (IsText ·)).map .ok) ∧
    (∀ change, output .json coloured [change] = "" ↔ ¬change.IsText) ∧
    ∀ later, output .json coloured (changes ++ later) =
      output .json coloured changes ++ output .json coloured later := by
  refine ⟨⟨changes.filterMap toJson?, ?_, ?_, readAll_lines changes⟩, ?_, ?_⟩
  · rw [toList_output]
    refine splitOn_lines fun line held => ?_
    obtain ⟨change, -, written⟩ := List.mem_filterMap.mp held
    exact unbroken_json written
  · rintro line held rfl
    obtain ⟨change, -, written⟩ := List.mem_filterMap.mp held
    exact not_blank_json written
  · intro change
    rw [← isSome_toJson?]
    cases written : change.toJson? <;> simp [output, line?, written]
  · exact output_append .json coloured changes

/-- A name with a line end, a quote and a backslash in it, between two changes of which one cannot be
written. -/
example : output .json true [⟨.created, none, some ⟨.ofString "a\nb\"c\\", 1, 0⟩⟩,
      ⟨.deleted, some ⟨⟨[0x66, 0xFF]⟩, 1, 0⟩, none⟩, ⟨.deleted, none, none⟩] =
    "\x7b\"kind\":\"CREATED\",\"before\":null,\"after\":\x7b\"path\":\"a\\nb\\\"c\\\\\"," ++
      "\"length\":1,\"last_modified\":0\x7d\x7d\n" ++
      "\x7b\"kind\":\"DELETED\",\"before\":null,\"after\":null\x7d\n" := by
  decide +kernel

end Change

end FolderWatch
