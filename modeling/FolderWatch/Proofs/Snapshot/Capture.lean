import FolderWatch.Proofs.Path.Joining
import FolderWatch.Proofs.Snapshot.Records

/-!
A capture holds the regular files that a directory lists and nothing else. Each is found by what its
own look-up gave; entries that cannot be read or looked up, or that are no regular files, make no
difference, and neither does the order of the listing.
-/

namespace FolderWatch

def Listed.name? : Listed → Option (List UInt8)
  | .entry name => some name
  | .unreadable _ => none

namespace Snapshot

variable {view other : DirectoryView} {directory : Path} {listing relisted : List Listed}
variable {snapshot : Snapshot}

/-- Names as a directory lists them, no name twice, among entries that cannot be read. -/
structure IsListing (listing : List Listed) : Prop where
  named : ∀ name, .entry name ∈ listing → Path.IsName name
  distinct : (listing.filterMap Listed.name?).Nodup

/-- What a listed name is due whose look-up gives a regular file. -/
def RegularEntry (view : DirectoryView) (directory : Path) (listing : List Listed)
    (entry : Path × FileRecord) : Prop :=
  ∃ name length modified, .entry name ∈ listing ∧
    view.lookup (directory.join ⟨name⟩) = .ok (.file length modified) ∧
    entry = (directory.join ⟨name⟩, ⟨directory.join ⟨name⟩, length, modified.epochMillis⟩)

def isRegular (view : DirectoryView) (directory : Path) : Listed → Bool
  | .unreadable _ => false
  | .entry name =>
      match view.lookup (directory.join ⟨name⟩) with
      | .ok (.file ..) => true
      | _ => false

/-- What the look-up of one name gives, as a record of that name. -/
def recordAt? (view : DirectoryView) (directory : Path) (name : List UInt8) : Option FileRecord :=
  match view.lookup (directory.join ⟨name⟩) with
  | .ok (.file length modified) => some ⟨directory.join ⟨name⟩, length, modified.epochMillis⟩
  | _ => none

/-- The snapshot holds the regular files of a listing, one entry for each, and it is the capture of
every listing that has the same regular files. -/
structure Captures (view : DirectoryView) (directory : Path) (listing : List Listed)
    (snapshot : Snapshot) : Prop where
  within : snapshot.directory = directory
  entries : ∀ entry, entry ∈ snapshot.entries ↔ RegularEntry view directory listing entry
  once : snapshot.size = listing.countP (isRegular view directory)
  found : ∀ name, .entry name ∈ listing →
    snapshot.get? (directory.join ⟨name⟩) = recordAt? view directory name
  alike : ∀ (other : DirectoryView) (relisted : List Listed),
    other.list directory = .ok relisted → IsListing relisted →
      (∀ entry, RegularEntry other directory relisted entry ↔
        RegularEntry view directory listing entry) →
        capture other directory = .ok snapshot
  reordered : ∀ (other : DirectoryView) (relisted : List Listed),
    other.list directory = .ok relisted → other.lookup = view.lookup → relisted.Perm listing →
      capture other directory = .ok snapshot

theorem listedRecord?_eq_some {listed : Listed} {record : FileRecord} :
    listedRecord? view directory listed = some record ↔
      ∃ name, listed = .entry name ∧ recordAt? view directory name = some record := by
  cases listed with
  | unreadable error => simp [listedRecord?]
  | entry name =>
      simp only [listedRecord?, recordAt?, entryPath, Listed.entry.injEq, exists_eq_left']
      cases view.lookup (directory.join ⟨name⟩) with
      | error error => rfl
      | ok metadata => cases metadata <;> rfl

theorem recordAt?_eq_some {name : List UInt8} {record : FileRecord} :
    recordAt? view directory name = some record ↔
      ∃ length modified, view.lookup (directory.join ⟨name⟩) = .ok (.file length modified) ∧
        record = ⟨directory.join ⟨name⟩, length, modified.epochMillis⟩ := by
  unfold recordAt?
  split
  · rename_i length modified looked
    simp [looked, eq_comm]
  · rename_i irregular
    simp only [reduceCtorEq, false_iff, not_exists, not_and]
    exact fun length modified looked => absurd looked (irregular length modified)

theorem path_of_recordAt? {name : List UInt8} {record : FileRecord}
    (recorded : recordAt? view directory name = some record) :
    record.path = directory.join ⟨name⟩ := by
  obtain ⟨length, modified, -, rfl⟩ := recordAt?_eq_some.1 recorded
  rfl

theorem isSome_listedRecord? (listed : Listed) :
    (listedRecord? view directory listed).isSome = isRegular view directory listed := by
  cases listed with
  | unreadable error => rfl
  | entry name =>
      simp only [listedRecord?, isRegular, entryPath]
      cases view.lookup (directory.join ⟨name⟩) with
      | error error => rfl
      | ok metadata => cases metadata <;> rfl

theorem IsListing.apart (lists : IsListing listing) :
    (listing.filterMap (listedRecord? view directory)).Pairwise fun first second =>
      ¬first.path.Same second.path := by
  have distinct := lists.distinct
  rw [List.Nodup, List.pairwise_filterMap] at distinct
  rw [List.pairwise_filterMap]
  refine distinct.imp_of_mem ?_
  intro first second firstMember secondMember different record recorded other otherRecorded same
  obtain ⟨name, rfl, own⟩ := listedRecord?_eq_some.1 recorded
  obtain ⟨otherName, rfl, otherOwn⟩ := listedRecord?_eq_some.1 otherRecorded
  rw [path_of_recordAt? own, path_of_recordAt? otherOwn,
    Path.join_same_iff (lists.named name firstMember) (lists.named otherName secondMember)] at same
  exact different name rfl otherName rfl same

/-- A capture takes its regular files in as they are listed, and only their order is its own. -/
theorem IsListing.entries_perm (lists : IsListing listing) :
    (ofListing view directory listing).entries.Perm
      ((listing.filterMap (listedRecord? view directory)).map FileRecord.entry) :=
  entries_perm_of_apart .first directory lists.apart

theorem IsListing.mem_entries (lists : IsListing listing) (entry : Path × FileRecord) :
    entry ∈ (ofListing view directory listing).entries ↔
      RegularEntry view directory listing entry := by
  rw [lists.entries_perm.mem_iff, List.mem_map]
  simp only [List.mem_filterMap, listedRecord?_eq_some, recordAt?_eq_some]
  constructor
  · rintro ⟨record, ⟨listed, member, name, rfl, length, modified, looked, rfl⟩, rfl⟩
    exact ⟨name, length, modified, member, looked, rfl⟩
  · rintro ⟨name, length, modified, member, looked, rfl⟩
    exact ⟨_, ⟨.entry name, member, name, rfl, length, modified, looked, rfl⟩, rfl⟩

theorem IsListing.found (lists : IsListing listing) {name : List UInt8}
    (member : .entry name ∈ listing) :
    (ofListing view directory listing).get? (directory.join ⟨name⟩) =
      recordAt? view directory name := by
  cases recorded : recordAt? view directory name with
  | some record =>
      obtain ⟨length, modified, looked, rfl⟩ := recordAt?_eq_some.1 recorded
      have listed := (lists.mem_entries (directory.join ⟨name⟩, _)).2
        ⟨name, length, modified, member, looked, rfl⟩
      exact (ofListing view directory listing).sorted.lookup_of_mem listed
  | none =>
      refine Entries.lookup_eq_none_iff.2 fun entry listed same => ?_
      obtain ⟨held, length, modified, heldMember, looked, rfl⟩ := (lists.mem_entries entry).1 listed
      rw [Path.join_same_iff (lists.named name member) (lists.named held heldMember)] at same
      subst held
      simp [recordAt?, looked] at recorded

theorem IsListing.alike (lists : IsListing listing) (relists : IsListing relisted)
    (same : ∀ entry, RegularEntry other directory relisted entry ↔
      RegularEntry view directory listing entry) :
    ofListing other directory relisted = ofListing view directory listing := by
  refine eq_of_entries ((directory_ofListing ..).trans (directory_ofListing ..).symm) ?_
  refine Entries.Sorted.eq_of_mem_iff (sorted _) (sorted _) fun entry => ?_
  rw [relists.mem_entries, lists.mem_entries, same]

theorem IsListing.perm (lists : IsListing listing) (perm : relisted.Perm listing) :
    IsListing relisted where
  named := fun name member => lists.named name (perm.subset member)
  distinct := (perm.filterMap _).nodup_iff.2 lists.distinct

theorem RegularEntry.perm (perm : relisted.Perm listing) (lookups : other.lookup = view.lookup)
    (entry : Path × FileRecord) :
    RegularEntry other directory relisted entry ↔ RegularEntry view directory listing entry := by
  simp only [RegularEntry, perm.mem_iff, lookups]

theorem IsListing.captures (lists : IsListing listing) :
    Captures view directory listing (ofListing view directory listing) where
  within := directory_ofListing view directory listing
  entries := lists.mem_entries
  once := by
    rw [size, lists.entries_perm.length_eq, List.length_map, List.length_filterMap_eq_countP]
    exact List.countP_congr fun listed _ => by rw [isSome_listedRecord?]
  found := fun _ member => lists.found member
  alike := by
    intro other relisted listed relists same
    simp only [capture, listed]
    rw [lists.alike relists same]
  reordered := by
    intro other relisted listed lookups perm
    simp only [capture, listed]
    rw [lists.alike (lists.perm perm) (RegularEntry.perm perm lookups)]

/-- Only a listing that fails makes a capture fail. Any other is captured as the regular files it
lists, in whatever order and whatever becomes of its other entries. -/
theorem capture_exact (view : DirectoryView) (directory : Path) :
    (∀ fault, capture view directory = .error fault ↔
      ∃ error, view.list directory = .error error ∧ fault = .transientScan directory error) ∧
    ∀ listing, view.list directory = .ok listing → IsListing listing →
      ∃ snapshot, capture view directory = .ok snapshot ∧
        Captures view directory listing snapshot := by
  constructor
  · intro fault
    cases listed : view.list directory with
    | error error => simp [capture, listed, eq_comm]
    | ok listing => simp [capture, listed]
  · intro listing listed lists
    exact ⟨ofListing view directory listing, by simp [capture, listed], lists.captures⟩

/-- The files `b` and `a`, an entry that cannot be read, one that is gone and a directory. -/
def mixedListing : List Listed :=
  [.entry [98], .unreadable (.other "Input/output error (os error 5)"), .entry [99], .entry [100],
    .entry [97]]

/-- The file `b` was last modified a millisecond before the epoch. -/
def mixedView (listing : List Listed) : DirectoryView where
  list _ := .ok listing
  lookup path :=
    match path.fileName? with
    | some [97] => .ok (.file 10 (.ofNanos 5000000))
    | some [98] => .ok (.file 2 (.ofNanos (-1000000)))
    | some [100] => .ok .directory
    | _ => .error .missing

theorem capture_exact_mixed :
    ∃ snapshot, capture (mixedView mixedListing) (.ofString "/d/") = .ok snapshot ∧
      Captures (mixedView mixedListing) (.ofString "/d/") mixedListing snapshot ∧
      snapshot.size = 2 ∧
      snapshot.get? (.ofString "/d/b") = some ⟨.ofString "/d/b", 2, -1⟩ ∧
      capture (mixedView mixedListing.reverse) (.ofString "/d/") = .ok snapshot := by
  have named : ∀ listed ∈ mixedListing, ∀ name, listed.name? = some name → Path.IsName name := by
    decide
  have lists : IsListing mixedListing := ⟨fun name member => named _ member name rfl, by decide⟩
  obtain ⟨snapshot, captured, captures⟩ :=
    (capture_exact (mixedView mixedListing) (.ofString "/d/")).2 mixedListing rfl lists
  refine ⟨snapshot, captured, captures, ?_, ?_, ?_⟩
  · rw [captures.once]
    decide
  · exact (captures.found [98] (by decide)).trans (by decide)
  · exact captures.reordered _ mixedListing.reverse rfl rfl (List.reverse_perm _)

end Snapshot

end FolderWatch
