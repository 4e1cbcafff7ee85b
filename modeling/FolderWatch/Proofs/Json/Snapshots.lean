import FolderWatch.Proofs.Json.Records
import FolderWatch.Proofs.Snapshot.Lookup
import FolderWatch.Snapshot.Json

/-!
Snapshots written as JSON read back as they were: their keys are written in path order, so each one
read goes to the end, and keys stay what they are, whatever path their records have.
-/

namespace FolderWatch

namespace Entries

variable {α : Type} {entries : Entries α} {path : Path} {value : α}

theorem insert_last (kept : KeptSpelling) (value : α)
    (before : ∀ entry ∈ entries, entry.1.Before path) :
    entries.insert kept path value = entries ++ [(path, value)] := by
  induction entries with
  | nil => rfl
  | cons head rest ih =>
      have later : compare path head.1 = .gt :=
        Std.OrientedCmp.gt_of_lt (before head List.mem_cons_self)
      have tail := ih fun entry member => before entry (List.mem_cons_of_mem _ member)
      simp only [insert, later, tail, List.cons_append]

theorem forall_insert {keys : Path → Prop} {values : α → Prop} (kept : KeptSpelling)
    (key : keys path) (fine : values value)
    (all : ∀ entry ∈ entries, keys entry.1 ∧ values entry.2) :
    ∀ entry ∈ entries.insert kept path value, keys entry.1 ∧ values entry.2 := by
  induction entries with
  | nil => simpa [insert] using ⟨key, fine⟩
  | cons head rest ih =>
      have headAll := all head List.mem_cons_self
      have restAll := fun entry member => all entry (List.mem_cons_of_mem _ member)
      simp only [insert]
      split
      · exact List.forall_mem_cons.mpr ⟨⟨key, fine⟩, all⟩
      · refine List.forall_mem_cons.mpr ⟨⟨?_, fine⟩, restAll⟩
        split
        · exact key
        · exact headAll.1
      · exact List.forall_mem_cons.mpr ⟨headAll, ih restAll⟩

end Entries

open Json

namespace Snapshot

def EntryIsText (entry : Path × FileRecord) : Prop := entry.1.IsText ∧ entry.2.IsText

def IsText (snapshot : Snapshot) : Prop :=
  snapshot.directory.IsText ∧ ∀ entry ∈ snapshot.entries, EntryIsText entry

theorem entryJson?_eq_some {entry : Path × FileRecord} {text : List Char} :
    entryJson? entry = some text ↔ ∃ key, entry.1.text? = some key ∧
      ∃ record, entry.2.toJson? = some record ∧ member key record = text := by
  cases key : entry.1.text? <;>
    simp [entryJson?, Path.toJson?, key, member, Option.bind_eq_some_iff]

theorem isSome_entryJson? {entry : Path × FileRecord} :
    (entryJson? entry).isSome ↔ EntryIsText entry := by
  rw [EntryIsText, ← Path.isSome_toJson?, ← FileRecord.isSome_toJson?]
  cases key : entry.1.toJson? <;> cases record : entry.2.toJson? <;>
    simp [entryJson?, key, record]

theorem isSome_entriesJson? {entries : Entries FileRecord} :
    (entries.mapM entryJson?).isSome ↔ ∀ entry ∈ entries, EntryIsText entry := by
  induction entries with
  | nil => simp
  | cons head rest ih =>
      rw [List.forall_mem_cons, ← isSome_entryJson?, ← ih, List.mapM_cons]
      cases first : entryJson? head <;> cases more : rest.mapM entryJson? <;> simp

theorem reads_entry {snapshot : Snapshot} {key : Path} {spelling : String} {record : FileRecord}
    {text : List Char} (spelled : key.text? = some spelling)
    (written : record.toJson? = some text) :
    Reads (readEntry snapshot spelling) (':' :: text) (snapshot.insert .first key record) := by
  intro rest ends
  have read := FileRecord.reads_json written rest ends
  simp only [readEntry, List.cons_append, expectColon_cons, read, bind, Except.bind,
    Path.ofString_of_text? spelled]
  rfl

/-- Read in order, the entries come to stand behind those already there. -/
theorem takes_entries {entries : Entries FileRecord} {texts : List (List Char)}
    (written : entries.mapM entryJson? = some texts) {snapshot last : Snapshot}
    (directory : last.directory = snapshot.directory)
    (listed : last.entries = snapshot.entries ++ entries) :
    Takes readEntry snapshot texts last := by
  induction entries generalizing snapshot texts with
  | nil =>
      cases written
      rw [eq_of_entries directory (listed.trans (List.append_nil _))]
      exact .nil snapshot
  | cons head rest ih =>
      obtain ⟨first, firstWritten, more, moreWritten, rfl⟩ :
          ∃ first, entryJson? head = some first ∧
            ∃ more, rest.mapM entryJson? = some more ∧ first :: more = texts := by
        simpa [List.mapM_cons, Option.bind_eq_some_iff] using written
      obtain ⟨spelling, spelled, record, recordWritten, rfl⟩ := entryJson?_eq_some.mp firstWritten
      -- The keys are sorted, so this one comes behind all those read before it.
      have before : ∀ entry ∈ snapshot.entries, entry.1.Before head.1 := by
        have sorted := last.sorted
        rw [listed] at sorted
        intro entry member
        exact (List.pairwise_append.mp sorted).2.2 entry member head List.mem_cons_self
      have appended : (snapshot.insert .first head.1 head.2).entries =
          snapshot.entries ++ [head] := Entries.insert_last .first head.2 before
      refine .cons (reads_entry spelled recordWritten) (ih moreWritten directory ?_)
      rw [appended, listed, List.append_assoc, List.singleton_append]

theorem toJson?_eq_some {snapshot : Snapshot} {text : List Char} :
    snapshot.toJson? = some text ↔
      ∃ directory, snapshot.directory.toJson? = some directory ∧
      ∃ entries, snapshot.entries.mapM entryJson? = some entries ∧
        object [member "directory" directory, member "records" (object entries)] = text := by
  simp [toJson?, Option.bind_eq_some_iff, object, member, quote, quoteChars, quoteChar]

theorem isSome_toJson? {snapshot : Snapshot} : snapshot.toJson?.isSome ↔ snapshot.IsText := by
  rw [IsText, ← Path.isSome_toJson?, ← isSome_entriesJson?]
  cases directory : snapshot.directory.toJson? <;>
    cases entries : snapshot.entries.mapM entryJson? <;> simp [toJson?, directory, entries]

theorem reads_entries {snapshot : Snapshot} {texts : List (List Char)}
    (written : snapshot.entries.mapM entryJson? = some texts) :
    Reads readEntries (object texts) (inDirectory ⟨[]⟩ snapshot) := by
  have takes : Takes readEntry (empty ⟨[]⟩) texts (inDirectory ⟨[]⟩ snapshot) :=
    takes_entries written rfl rfl
  intro rest _
  obtain ⟨body, opened, taken⟩ := takes.object rest
  have brace : skipBlank ('{' :: body) = '{' :: body := rfl
  rw [opened]
  simp only [readEntries, brace, taken]

theorem reads_json {snapshot : Snapshot} {text : List Char}
    (written : snapshot.toJson? = some text) : Reads readJson text snapshot := by
  obtain ⟨directory, directoryWritten, entries, entriesWritten, rfl⟩ := toJson?_eq_some.mp written
  have directoryRead := (Path.reads_json directoryWritten).field
    fun directory => ({ directory } : Fields)
  have entriesRead := (reads_entries entriesWritten).field
    fun records => ({ directory := some snapshot.directory, records } : Fields)
  have takes : Takes Fields.readMember {}
      [member "directory" directory, member "records" (object entries)]
      ⟨some snapshot.directory, some (inDirectory ⟨[]⟩ snapshot)⟩ :=
    .cons directoryRead (.cons entriesRead (.nil _))
  exact readStructure_object takes rfl

def EntriesAreText (snapshot : Snapshot) : Prop := ∀ entry ∈ snapshot.entries, EntryIsText entry

theorem yields_entries : Yields readEntries EntriesAreText := by
  intro text snapshot rest taken
  unfold readEntries at taken
  split at taken
  · cases taken
  · refine Yields.members ?_ ?_ _ _ _ _ _ taken
    · intro before key texts text after rest taken
      obtain ⟨_, -, taken⟩ := bind_eq_ok.1 taken
      obtain ⟨_, inner, same⟩ := bind_eq_ok.1 taken
      cases same
      exact Entries.forall_insert .first (Path.isText_ofString key)
        (FileRecord.yields_json _ _ _ inner) texts
    · intro entry member
      cases member
  · cases taken

def Fields.AreText (fields : Fields) : Prop :=
  (∀ directory ∈ fields.directory, directory.IsText) ∧
    ∀ records ∈ fields.records, records.EntriesAreText

theorem Fields.yields_member (fields : Fields) (name : String) (texts : fields.AreText) :
    Yields (fields.readMember name) AreText := by
  intro text next rest taken
  unfold Fields.readMember at taken
  split at taken
  · obtain ⟨_, inner, same⟩ := bind_eq_ok.1 taken
    cases same
    exact ⟨Path.yields_json.field _ _ _ _ inner, texts.2⟩
  split at taken
  · obtain ⟨_, inner, same⟩ := bind_eq_ok.1 taken
    cases same
    exact ⟨texts.1, yields_entries.field _ _ _ _ inner⟩
  · exact Yields.skip texts _ _ _ taken

theorem yields_json : Yields readJson IsText := by
  have listed : Yields readElements IsText := by
    intro text snapshot rest taken
    obtain ⟨_, first, taken⟩ := bind_eq_ok.1 taken
    obtain ⟨_, second, same⟩ := bind_eq_ok.1 taken
    cases same
    have texts := yields_entries.element false _ _ _ second
    exact ⟨Path.yields_json.element true _ _ _ first, texts⟩
  refine .structure listed ?_ Fields.yields_member ?_
  · constructor <;> (intro found given; cases given)
  · rintro ⟨directory, records⟩ snapshot ⟨directoryTexts, recordsTexts⟩ finished
    obtain ⟨foundDirectory, directoryGiven, finished⟩ := bind_eq_ok.1 finished
    obtain ⟨foundRecords, recordsGiven, same⟩ := bind_eq_ok.1 finished
    cases same
    exact ⟨directoryTexts foundDirectory (required_eq_ok.mp directoryGiven),
      recordsTexts foundRecords (required_eq_ok.mp recordsGiven)⟩

end Snapshot

end FolderWatch
