import FolderWatch.Change.Json
import FolderWatch.Proofs.Json.Structures

/-!
Paths, records and changes written as JSON read back as they were. They can be written exactly when
all of their paths are text, and nothing else can be read.
-/

namespace FolderWatch

open Json

namespace Path

/-- Valid UTF-8. -/
def IsText (path : Path) : Prop := path.text?.isSome

theorem isText_ofString (text : String) : (ofString text).IsText := by
  simp [IsText, text?_ofString]

theorem isSome_toJson? {path : Path} : path.toJson?.isSome ↔ path.IsText := by
  simp [toJson?, IsText]

theorem reads_json {path : Path} {text : List Char} (written : path.toJson? = some text) :
    Reads readJson text path := by
  obtain ⟨spelling, spelled, rfl⟩ := Option.map_eq_some_iff.mp written
  intro rest ends
  simp only [readJson, readString_quote spelling rest ends, bind, Except.bind,
    ofString_of_text? spelled]
  rfl

theorem yields_json : Yields readJson IsText := by
  intro text path rest taken
  obtain ⟨⟨spelling, _⟩, -, same⟩ := bind_eq_ok.1 taken
  cases same
  exact isText_ofString spelling

end Path

namespace FileRecord

def IsText (record : FileRecord) : Prop := record.path.IsText

theorem toJson?_eq_some {record : FileRecord} {text : List Char} :
    record.toJson? = some text ↔ ∃ path, record.path.toJson? = some path ∧
      object [member "path" path, member "length" (natural record.length.toNat),
        member "last_modified" (integer record.modified.toInt)] = text := by
  simp [toJson?, Option.bind_eq_some_iff, object, member, quote, quoteChars, quoteChar]

theorem isSome_toJson? {record : FileRecord} : record.toJson?.isSome ↔ record.IsText := by
  rw [IsText, ← Path.isSome_toJson?]
  cases written : record.path.toJson? <;> simp [toJson?, written]

theorem reads_json {record : FileRecord} {text : List Char}
    (written : record.toJson? = some text) : Reads readJson text record := by
  obtain ⟨path, pathWritten, rfl⟩ := toJson?_eq_some.mp written
  have pathRead := (Path.reads_json pathWritten).field fun path => ({ path } : Fields)
  have lengthRead := (readUInt64_natural record.length).field
    fun length => ({ path := some record.path, length } : Fields)
  have modifiedRead := (readInt64_integer record.modified).field fun modified =>
    ({ path := some record.path, length := some record.length, modified } : Fields)
  have takes : Takes Fields.readMember {}
      [member "path" path, member "length" (natural record.length.toNat),
        member "last_modified" (integer record.modified.toInt)]
      ⟨some record.path, some record.length, some record.modified⟩ :=
    .cons pathRead (.cons lengthRead (.cons modifiedRead (.nil _)))
  exact readStructure_object takes rfl

def Fields.AreText (fields : Fields) : Prop := ∀ path ∈ fields.path, path.IsText

theorem Fields.yields_member (fields : Fields) (name : String) (texts : fields.AreText) :
    Yields (fields.readMember name) AreText := by
  intro text next rest taken
  unfold Fields.readMember at taken
  split at taken
  · obtain ⟨_, inner, same⟩ := bind_eq_ok.1 taken
    cases same
    exact Path.yields_json.field _ _ _ _ inner
  split at taken
  · obtain ⟨_, -, same⟩ := bind_eq_ok.1 taken
    cases same
    exact texts
  split at taken
  · obtain ⟨_, -, same⟩ := bind_eq_ok.1 taken
    cases same
    exact texts
  · exact Yields.skip texts _ _ _ taken

theorem Fields.finish_eq_ok {fields : Fields} {record : FileRecord}
    (finished : fields.finish = .ok record) : fields.path = some record.path := by
  obtain ⟨path, given, more⟩ := bind_eq_ok.1 finished
  obtain ⟨length, -, last⟩ := bind_eq_ok.1 more
  obtain ⟨modified, -, same⟩ := bind_eq_ok.1 last
  cases same
  exact required_eq_ok.mp given

theorem yields_json : Yields readJson IsText := by
  have listed : Yields readElements IsText := by
    intro text record rest taken
    obtain ⟨_, first, taken⟩ := bind_eq_ok.1 taken
    obtain ⟨_, -, taken⟩ := bind_eq_ok.1 taken
    obtain ⟨_, -, same⟩ := bind_eq_ok.1 taken
    cases same
    exact Path.yields_json.element true _ _ _ first
  refine .structure listed ?_ Fields.yields_member ?_
  · intro path given
    cases given
  · intro fields record texts finished
    exact texts record.path (Fields.finish_eq_ok finished)

end FileRecord

namespace ChangeKind

theorem reads_json (kind : ChangeKind) : Reads readJson kind.toJson kind :=
  readName_quote (by cases kind <;> decide)

end ChangeKind

namespace Change

def IsText (change : Change) : Prop :=
  (∀ record ∈ change.before, record.IsText) ∧ ∀ record ∈ change.after, record.IsText

theorem isSome_recordJson? {found : Option FileRecord} :
    (recordJson? found).isSome ↔ ∀ record ∈ found, record.IsText := by
  cases found with
  | none => simp [recordJson?]
  | some record => simp [recordJson?, FileRecord.isSome_toJson?]

theorem reads_record {found : Option FileRecord} {text : List Char}
    (written : recordJson? found = some text) :
    Reads (readOption FileRecord.readJson) text found := by
  cases found with
  | none =>
      cases written
      exact readOption_none
  | some record =>
      have reads := FileRecord.reads_json written
      obtain ⟨path, -, rfl⟩ := FileRecord.toJson?_eq_some.mp written
      exact readOption_some reads (by decide) (by decide)

theorem toJson?_eq_some {change : Change} {text : List Char} :
    change.toJson? = some text ↔ ∃ before, recordJson? change.before = some before ∧
      ∃ after, recordJson? change.after = some after ∧
        object [member "kind" change.kind.toJson, member "before" before, member "after" after] =
          text := by
  simp [toJson?, Option.bind_eq_some_iff, object, member, quote, quoteChars, quoteChar]

theorem isSome_toJson? {change : Change} : change.toJson?.isSome ↔ change.IsText := by
  rw [IsText, ← isSome_recordJson?, ← isSome_recordJson?]
  cases before : recordJson? change.before <;> cases after : recordJson? change.after <;>
    simp [toJson?, before, after]

theorem reads_json {change : Change} {text : List Char} (written : change.toJson? = some text) :
    Reads readJson text change := by
  obtain ⟨before, beforeWritten, after, afterWritten, rfl⟩ := toJson?_eq_some.mp written
  have kindRead := (ChangeKind.reads_json change.kind).field fun kind => ({ kind } : Fields)
  have beforeRead := (reads_record beforeWritten).field
    fun before => ({ kind := some change.kind, before } : Fields)
  have afterRead := (reads_record afterWritten).field
    fun after => ({ kind := some change.kind, before := some change.before, after } : Fields)
  have takes : Takes Fields.readMember {}
      [member "kind" change.kind.toJson, member "before" before, member "after" after]
      ⟨some change.kind, some change.before, some change.after⟩ :=
    .cons kindRead (.cons beforeRead (.cons afterRead (.nil _)))
  exact readStructure_object takes rfl

def Fields.AreText (fields : Fields) : Prop :=
  (∀ found ∈ fields.before, ∀ record ∈ found, record.IsText) ∧
    ∀ found ∈ fields.after, ∀ record ∈ found, record.IsText

theorem Fields.yields_member (fields : Fields) (name : String) (texts : fields.AreText) :
    Yields (fields.readMember name) AreText := by
  intro text next rest taken
  unfold Fields.readMember at taken
  split at taken
  · obtain ⟨_, -, same⟩ := bind_eq_ok.1 taken
    cases same
    exact texts
  split at taken
  · obtain ⟨_, inner, same⟩ := bind_eq_ok.1 taken
    cases same
    exact ⟨FileRecord.yields_json.option.field _ _ _ _ inner, texts.2⟩
  split at taken
  · obtain ⟨_, inner, same⟩ := bind_eq_ok.1 taken
    cases same
    exact ⟨texts.1, FileRecord.yields_json.option.field _ _ _ _ inner⟩
  · exact Yields.skip texts _ _ _ taken

theorem yields_json : Yields readJson IsText := by
  have listed : Yields readElements IsText := by
    intro text change rest taken
    obtain ⟨_, -, taken⟩ := bind_eq_ok.1 taken
    obtain ⟨_, first, taken⟩ := bind_eq_ok.1 taken
    obtain ⟨_, second, same⟩ := bind_eq_ok.1 taken
    cases same
    exact ⟨FileRecord.yields_json.option.element false _ _ _ first,
      FileRecord.yields_json.option.element false _ _ _ second⟩
  refine .structure listed ?_ Fields.yields_member ?_
  · constructor <;> (intro found given; cases given)
  · rintro ⟨kind, before, after⟩ change ⟨beforeTexts, afterTexts⟩ finished
    obtain ⟨_, -, same⟩ := bind_eq_ok.1 finished
    cases same
    constructor
    · intro record held
      exact beforeTexts _ (Option.join_eq_some_iff.mp held) record rfl
    · intro record held
      exact afterTexts _ (Option.join_eq_some_iff.mp held) record rfl

end Change

end FolderWatch
