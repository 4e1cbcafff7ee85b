import FolderWatch.Snapshot
import FolderWatch.DirectoryView
import FolderWatch.LogLine

/-!
A capture takes a snapshot of a directory: one record for each listed name that leads to a regular
file. Entries that cannot be read or looked up are left out and affect no other.
-/

namespace FolderWatch

namespace FileRecord

def ofMetadata? (path : Path) : Metadata → Option FileRecord
  | .file length modified => some ⟨path, length, modified.epochMillis⟩
  | _ => none

end FileRecord

namespace Snapshot

def entryPath (directory : Path) (name : List UInt8) : Path := directory.join ⟨name⟩

def listedRecord? (view : DirectoryView) (directory : Path) : Listed → Option FileRecord
  | .unreadable _ => none
  | .entry name =>
      match view.lookup (entryPath directory name) with
      | .error _ => none
      | .ok metadata => FileRecord.ofMetadata? (entryPath directory name) metadata

def ofListing (view : DirectoryView) (directory : Path) (listing : List Listed) : Snapshot :=
  (listing.filterMap (listedRecord? view directory)).foldl
    (fun snapshot record => snapshot.insert .first record.path record) (empty directory)

/-- Only a listing that fails makes a capture fail. -/
def capture (view : DirectoryView) (directory : Path) : Except Fault Snapshot :=
  match view.list directory with
  | .error error => .error (.transientScan directory error)
  | .ok listing => .ok (ofListing view directory listing)

def skippedLine? (view : DirectoryView) (directory : Path) : Listed → Option LogLine
  | .unreadable error =>
      some ⟨.warn, "Skipping unreadable entry in " ++ directory.display ++ ": " ++ error.message⟩
  | .entry name =>
      match view.lookup (entryPath directory name) with
      | .error error =>
          some ⟨.debug, "Skipping " ++ (entryPath directory name).display ++ ": " ++ error.message⟩
      | .ok _ => none

def captureLog (view : DirectoryView) (directory : Path) : List LogLine :=
  match view.list directory with
  | .error _ => []
  | .ok listing => listing.filterMap (skippedLine? view directory)

theorem directory_ofListing (view : DirectoryView) (directory : Path) (listing : List Listed) :
    (ofListing view directory listing).directory = directory :=
  directory_insertAll .first _ (empty directory)

theorem directory_capture {view : DirectoryView} {directory : Path} {snapshot : Snapshot}
    (captured : capture view directory = .ok snapshot) : snapshot.directory = directory := by
  unfold capture at captured
  split at captured
  · simp at captured
  · cases captured
    exact directory_ofListing ..

end Snapshot

end FolderWatch
