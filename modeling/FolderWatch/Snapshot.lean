import FolderWatch.FileRecord
import FolderWatch.Snapshot.Entries

/-!
A snapshot holds the regular files of one directory at one instant, keyed by path and kept in path
order. Built from records, it finds at each path the last record given for it.
-/

namespace FolderWatch

structure Snapshot where
  directory : Path
  entries : Entries FileRecord
  sorted : entries.Sorted
  deriving Repr

namespace Snapshot

def empty (directory : Path) : Snapshot := ⟨directory, [], .nil⟩

instance : Inhabited Snapshot := ⟨empty default⟩

def insert (snapshot : Snapshot) (kept : KeptSpelling) (key : Path) (record : FileRecord) :
    Snapshot :=
  ⟨snapshot.directory, snapshot.entries.insert kept key record, snapshot.sorted.insert ..⟩

/-- Of several records with one path the last stays, in its own spelling. -/
def ofRecords (directory : Path) (records : List FileRecord) : Snapshot :=
  records.foldl (fun snapshot record => snapshot.insert .last record.path record) (empty directory)

def erase (snapshot : Snapshot) (key : Path) : Snapshot :=
  ⟨snapshot.directory, snapshot.entries.erase key, snapshot.sorted.erase key⟩

def get? (snapshot : Snapshot) (path : Path) : Option FileRecord :=
  snapshot.entries.lookup path

def contains (snapshot : Snapshot) (path : Path) : Bool :=
  (snapshot.get? path).isSome

def records (snapshot : Snapshot) : List FileRecord :=
  snapshot.entries.map Prod.snd

def size (snapshot : Snapshot) : Nat := snapshot.entries.length

def SameEntries : Entries FileRecord → Entries FileRecord → Prop
  | [], [] => True
  | left :: lefts, right :: rights =>
      left.1.Same right.1 ∧ left.2.Same right.2 ∧ SameEntries lefts rights
  | _, _ => False

def decideSameEntries : (left right : Entries FileRecord) → Decidable (SameEntries left right)
  | [], [] => .isTrue trivial
  | [], _ :: _ => .isFalse id
  | _ :: _, [] => .isFalse id
  | _ :: lefts, _ :: rights =>
      have := decideSameEntries lefts rights
      inferInstanceAs (Decidable (_ ∧ _ ∧ SameEntries lefts rights))

instance (left right : Entries FileRecord) : Decidable (SameEntries left right) :=
  decideSameEntries left right

/-- Equal up to the spelling of paths. -/
def Same (left right : Snapshot) : Prop :=
  left.directory.Same right.directory ∧ SameEntries left.entries right.entries

instance (left right : Snapshot) : Decidable (Same left right) :=
  inferInstanceAs (Decidable (_ ∧ _))

@[simp] theorem get?_empty (directory path : Path) : (empty directory).get? path = none := rfl

theorem get?_insert (snapshot : Snapshot) (kept : KeptSpelling) (key query : Path)
    (record : FileRecord) :
    (snapshot.insert kept key record).get? query =
      if query.Same key then some record else snapshot.get? query :=
  Entries.lookup_insert ..

theorem get?_erase (snapshot : Snapshot) (key query : Path) :
    (snapshot.erase key).get? query =
      if query.Same key then none else snapshot.get? query :=
  snapshot.sorted.lookup_erase key query

theorem get?_eq_of_same (snapshot : Snapshot) {path path' : Path} (same : path.Same path') :
    snapshot.get? path = snapshot.get? path' :=
  Entries.lookup_eq_of_same same _

@[simp] theorem directory_insert (snapshot : Snapshot) (kept : KeptSpelling) (key : Path)
    (record : FileRecord) : (snapshot.insert kept key record).directory = snapshot.directory := rfl

theorem directory_insertAll (kept : KeptSpelling) (records : List FileRecord)
    (snapshot : Snapshot) :
    (records.foldl (fun snapshot record => snapshot.insert kept record.path record)
      snapshot).directory = snapshot.directory := by
  induction records generalizing snapshot with
  | nil => rfl
  | cons record rest ih => exact ih _

@[simp] theorem directory_erase (snapshot : Snapshot) (key : Path) :
    (snapshot.erase key).directory = snapshot.directory := rfl

end Snapshot

end FolderWatch
