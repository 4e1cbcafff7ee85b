import FolderWatch.Proofs.Recognizer.Exactness
import FolderWatch.Proofs.Snapshot.Capture
import FolderWatch.Word

/-!
A record keeps the time of a modification as whole milliseconds in one word. They are cut toward the
epoch on both of its sides, so all times less than a millisecond away from it are one to a record,
and they wrap around where they are more than a word holds. Any other two times that are at least a
millisecond apart are told apart, and a file that was modified at them is reported.
-/

namespace FolderWatch

namespace Instant

variable {instant first second : Instant}

/-- The whole milliseconds between an instant and the epoch, narrowed to one word. -/
def distance (instant : Instant) : Int64 := Int64.ofInt instant.millis.natAbs

/-- Before the epoch the distance is negated, and not every word has a negative. -/
def Overflows (instant : Instant) : Prop :=
  instant.toNanos < 0 ∧ (-instant.distance).toInt ≠ -instant.distance.toInt

/-- One signed word holds the whole milliseconds to the epoch and their negative. -/
def InReach (instant : Instant) : Prop := instant.millis.natAbs < signedLimit

def IsNearEpoch (instant : Instant) : Prop := instant.toNanos.natAbs < 1000000

/-- At least a millisecond passes between two instants. -/
def Precedes (first second : Instant) : Prop := first.toNanos + 1000000 ≤ second.toNanos

instance (instant : Instant) : Decidable (Overflows instant) :=
  inferInstanceAs (Decidable (_ ∧ _))

instance (instant : Instant) : Decidable (InReach instant) :=
  inferInstanceAs (Decidable (_ < _))

instance (instant : Instant) : Decidable (IsNearEpoch instant) :=
  inferInstanceAs (Decidable (_ < _))

instance (first second : Instant) : Decidable (Precedes first second) :=
  inferInstanceAs (Decidable (_ ≤ _))

/-- What a clock can show: seconds in one signed word, and less than a second of nanoseconds. -/
def IsTime (instant : Instant) : Prop :=
  -(signedLimit : Int) ≤ instant.seconds ∧ instant.seconds < signedLimit ∧
    instant.nanos < 1000000000

instance (instant : Instant) : Decidable (IsTime instant) :=
  inferInstanceAs (Decidable (_ ∧ _ ∧ _))

theorem millis_of_nonneg (since : 0 ≤ instant.toNanos) :
    instant.millis = instant.toNanos / 1000000 :=
  Int.tdiv_eq_ediv_of_nonneg since

theorem millis_of_neg (before : instant.toNanos < 0) :
    instant.millis = -(-instant.toNanos / 1000000) := by
  rw [millis, ← Int.tdiv_eq_ediv_of_nonneg (by omega), Int.neg_tdiv, Int.neg_neg]

theorem epochMillis_eq (instant : Instant) : instant.epochMillis = Int64.ofInt instant.millis := by
  unfold epochMillis
  split
  · rfl
  · rw [Int64.neg_ofInt, Int.neg_neg]

/-- Overflow can come from the negation only. -/
theorem epochMillis_eq_distance (instant : Instant) :
    instant.epochMillis = if instant.toNanos < 0 then -instant.distance else instant.distance := by
  rw [epochMillis_eq, distance]
  split
  · rename_i before
    have negative : instant.millis ≤ 0 := by
      rw [millis_of_neg before]
      omega
    rw [Int64.neg_ofInt, Int.ofNat_natAbs_of_nonpos negative, Int.neg_neg]
  · rename_i since
    have positive : 0 ≤ instant.millis := by
      rw [millis_of_nonneg (by omega)]
      omega
    rw [Int.natAbs_of_nonneg positive]

theorem toInt_epochMillis (reach : instant.InReach) :
    instant.epochMillis.toInt = instant.millis := by
  simp only [InReach, signedLimit] at reach
  rw [epochMillis_eq, Int64.toInt_ofInt_of_le] <;> omega

theorem epochMillis_eq_iff : first.epochMillis = second.epochMillis ↔
    (wordLimit : Int) ∣ second.millis - first.millis := by
  rw [epochMillis_eq, epochMillis_eq, ← Int64.toInt_inj, Int64.toInt_ofInt, Int64.toInt_ofInt,
    eq_comm, Int.bmod_eq_bmod_iff_bmod_sub_eq_zero, Int.dvd_iff_bmod_eq_zero]
  rfl

/-- The least word is the one without a negative. -/
theorem neg_inexact_iff (word : Int64) :
    (-word).toInt ≠ -word.toInt ↔ word.toInt = -(signedLimit : Int) := by
  have low := word.le_toInt
  have high := word.toInt_lt
  rw [Int64.toInt_neg, Int.bmod_def]
  simp only [signedLimit]
  omega

theorem distance_least_iff :
    instant.distance.toInt = -(signedLimit : Int) ↔
      instant.millis.natAbs % wordLimit = signedLimit := by
  rw [distance, Int64.toInt_ofInt, Int.bmod_def]
  simp only [signedLimit, wordLimit, Int64.size]
  omega

theorem overflows_iff : instant.Overflows ↔
    instant.toNanos < 0 ∧ instant.millis.natAbs % wordLimit = signedLimit := by
  rw [Overflows, neg_inexact_iff, distance_least_iff]

theorem InReach.not_overflows (reach : instant.InReach) : ¬instant.Overflows := by
  simp only [InReach, overflows_iff, signedLimit, wordLimit] at *
  omega

theorem millis_mono (ordered : first.toNanos ≤ second.toNanos) : first.millis ≤ second.millis := by
  rcases Int.lt_or_le first.toNanos 0 with before | since
  · rw [millis_of_neg before]
    rcases Int.lt_or_le second.toNanos 0 with beforeToo | later
    · rw [millis_of_neg beforeToo]
      omega
    · rw [millis_of_nonneg later]
      omega
  · rw [millis_of_nonneg since, millis_of_nonneg (Int.le_trans since ordered)]
    omega

theorem millis_lt (precedes : first.Precedes second)
    (apart : ¬(first.IsNearEpoch ∧ second.IsNearEpoch)) : first.millis < second.millis := by
  simp only [Precedes, IsNearEpoch] at precedes apart
  rcases Int.lt_or_le first.toNanos 0 with before | since
  · rw [millis_of_neg before]
    rcases Int.lt_or_le second.toNanos 0 with beforeToo | later
    · rw [millis_of_neg beforeToo]
      omega
    · rw [millis_of_nonneg later]
      omega
  · rw [millis_of_nonneg since, millis_of_nonneg (by omega)]
    omega

theorem epochMillis_mono (firstReach : first.InReach) (secondReach : second.InReach)
    (ordered : first.toNanos ≤ second.toNanos) : first.epochMillis ≤ second.epochMillis := by
  rw [Int64.le_iff_toInt_le, toInt_epochMillis firstReach, toInt_epochMillis secondReach]
  exact millis_mono ordered

/-- Milliseconds that differ by less than all the words there are make different words. -/
theorem epochMillis_ne (precedes : first.Precedes second)
    (apart : ¬(first.IsNearEpoch ∧ second.IsNearEpoch))
    (within : second.millis - first.millis < wordLimit) :
    first.epochMillis ≠ second.epochMillis := by
  have later := millis_lt precedes apart
  intro same
  have least := Int.le_of_dvd (by omega) (epochMillis_eq_iff.1 same)
  omega

end Instant

namespace Snapshot

variable {view : DirectoryView} {directory : Path} {name : List UInt8} {length : UInt64}
variable {modified : Instant}

/-- The directory lists a regular file of this name and length that was last modified then. -/
structure Sees (view : DirectoryView) (directory : Path) (name : List UInt8) (length : UInt64)
    (modified : Instant) : Prop where
  listed : ∃ listing, view.list directory = .ok listing ∧ IsListing listing ∧ .entry name ∈ listing
  looked : view.lookup (directory.join ⟨name⟩) = .ok (.file length modified)

theorem Sees.captured (sees : Sees view directory name length modified) :
    ∃ snapshot, capture view directory = .ok snapshot ∧
      snapshot.get? (directory.join ⟨name⟩) =
        some ⟨directory.join ⟨name⟩, length, modified.epochMillis⟩ := by
  obtain ⟨listing, listed, lists, member⟩ := sees.listed
  refine ⟨ofListing view directory listing, by simp [capture, listed], ?_⟩
  rw [lists.found member]
  exact recordAt?_eq_some.2 ⟨length, modified, sees.looked, rfl⟩

end Snapshot

namespace Recognizer

variable {before after : Snapshot} {path : Path} {old new : FileRecord}

/-- What is reported of a file that both snapshots hold. -/
theorem changed_at (afterKeyed : after.Keyed)
    (directories : before.directory.Same after.directory) (was : before.get? path = some old)
    (found : after.get? path = some new) :
    ((changed.compare before after).filter fun change => path.Same change.path) =
      if old.Differs new then [.modified old new] else [] := by
  have spelled := before.get?_eq_of_same (afterKeyed path new found)
  have reported := @changes_at before after changed afterKeyed path
  simp only [searched, found, Option.bind_some, report?, ← spelled, was] at reported
  rw [compare, if_pos directories, reported]
  by_cases differs : old.Differs new <;> simp [differs]

/-- Times within reach of a record's word are kept in their order, and any two times that are at
least a millisecond and less than all the words apart are told apart, unless both are less than a
millisecond from the epoch. -/
theorem modifications_told_apart (first second : Instant) :
    (first.epochMillis = if first.toNanos < 0 then -first.distance else first.distance) ∧
    (first.Overflows ↔ first.toNanos < 0 ∧ first.millis.natAbs % wordLimit = signedLimit) ∧
    (first.InReach → ¬first.Overflows) ∧
    (first.InReach → second.InReach → first.toNanos ≤ second.toNanos →
      first.epochMillis ≤ second.epochMillis) ∧
    (first.InReach → second.InReach → second.millis - first.millis < wordLimit) ∧
    (first.Precedes second → ¬(first.IsNearEpoch ∧ second.IsNearEpoch) →
      second.millis - first.millis < wordLimit →
        first.epochMillis ≠ second.epochMillis ∧
        ∀ {view other : DirectoryView} {directory : Path} {name : List UInt8} {length : UInt64},
          Snapshot.Sees view directory name length first →
          Snapshot.Sees other directory name length second →
            ∃ before after old new, Snapshot.capture view directory = .ok before ∧
              Snapshot.capture other directory = .ok after ∧
              before.get? (directory.join ⟨name⟩) = some old ∧
              after.get? (directory.join ⟨name⟩) = some new ∧ old.Differs new ∧
              ((changed.compare before after).filter fun change =>
                (directory.join ⟨name⟩).Same change.path) = [.modified old new]) := by
  refine ⟨Instant.epochMillis_eq_distance first, Instant.overflows_iff,
    Instant.InReach.not_overflows, Instant.epochMillis_mono, ?_, ?_⟩
  · intro firstReach secondReach
    simp only [Instant.InReach, signedLimit, wordLimit] at *
    omega
  · intro precedes apart within
    have distinct := Instant.epochMillis_ne precedes apart within
    refine ⟨distinct, ?_⟩
    intro view other directory name length sees seesLater
    obtain ⟨before, captured, was⟩ := sees.captured
    obtain ⟨after, capturedLater, found⟩ := seesLater.captured
    have directories : before.directory.Same after.directory := by
      rw [Snapshot.directory_capture captured, Snapshot.directory_capture capturedLater]
      exact .refl directory
    have differs : FileRecord.Differs ⟨directory.join ⟨name⟩, length, first.epochMillis⟩
        ⟨directory.join ⟨name⟩, length, second.epochMillis⟩ := .inr distinct
    have reported := changed_at (Snapshot.keyed_capture capturedLater) directories was found
    rw [if_pos differs] at reported
    exact ⟨before, after, _, _, captured, capturedLater, was, found, differs, reported⟩

/-- A directory of one file. -/
def oneFile (modified : Instant) : DirectoryView where
  list _ := .ok [.entry [102]]
  lookup _ := .ok (.file 1 modified)

theorem sees_oneFile (directory : Path) (modified : Instant) :
    Snapshot.Sees (oneFile modified) directory [102] 1 modified where
  listed := by
    have named : ∀ name, Listed.entry name ∈ [Listed.entry [102]] → Path.IsName name := by
      intro name member
      cases List.mem_singleton.1 member
      decide
    exact ⟨_, rfl, ⟨named, by decide⟩, by decide⟩
  looked := rfl

/-- A file is modified just over a millisecond before the epoch, and again a millisecond later. -/
theorem modifications_told_apart_before_epoch :
    let first := Instant.ofNanos (-1000001)
    let second := Instant.ofNanos (-1)
    first.InReach ∧ second.InReach ∧ ¬first.Overflows ∧ first.Precedes second ∧
      ¬(first.IsNearEpoch ∧ second.IsNearEpoch) ∧ first.epochMillis < second.epochMillis ∧
      ∃ before after old new, Snapshot.capture (oneFile first) (.ofString "/d") = .ok before ∧
        Snapshot.capture (oneFile second) (.ofString "/d") = .ok after ∧
        ((changed.compare before after).filter fun change =>
          (Path.join (.ofString "/d") ⟨[102]⟩).Same change.path) = [.modified old new] := by
  intro first second
  have reach : first.InReach := by decide
  have reachLater : second.InReach := by decide
  have precedes : first.Precedes second := by decide
  have apart : ¬(first.IsNearEpoch ∧ second.IsNearEpoch) := by decide
  obtain ⟨-, -, exactly, ordered, within, distinct⟩ := modifications_told_apart first second
  obtain ⟨different, reports⟩ := distinct precedes apart (within reach reachLater)
  obtain ⟨before, after, old, new, captured, capturedLater, -, -, -, reported⟩ :=
    reports (sees_oneFile (.ofString "/d") first) (sees_oneFile (.ofString "/d") second)
  exact ⟨reach, reachLater, exactly reach, precedes, apart,
    Int64.lt_of_le_of_ne (ordered reach reachLater (by decide)) different,
    before, after, old, new, captured, capturedLater, reported⟩

/-- A file modified shortly before the epoch and again shortly after it is not reported. Two times
are one word when all the words lie between them, the millisecond after the last one in reach comes
out as the first of all, and the distance of the earliest one cannot be negated. -/
theorem modifications_missed :
    (let (first, second) : Instant × Instant := (.ofNanos (-999999), .ofNanos 999999)
     first.IsTime ∧ second.IsTime ∧ first.Precedes second ∧
      first.epochMillis = second.epochMillis ∧
      ∃ before after, Snapshot.capture (oneFile first) (.ofString "/d") = .ok before ∧
        Snapshot.capture (oneFile second) (.ofString "/d") = .ok after ∧
        changed.compare before after = []) ∧
    (let (first, second) : Instant × Instant := (⟨0, 0⟩, ⟨18446744073709551, 616000000⟩)
     first.IsTime ∧ second.IsTime ∧ first.Precedes second ∧
      first.epochMillis = second.epochMillis) ∧
    (let (first, second) : Instant × Instant :=
      (⟨9223372036854775, 807000000⟩, ⟨9223372036854775, 808000000⟩)
     first.IsTime ∧ second.IsTime ∧ first.Precedes second ∧
      second.epochMillis < first.epochMillis) ∧
    (let instant : Instant := ⟨-9223372036854776, 192000000⟩
     instant.IsTime ∧ instant.Overflows) := by
  refine ⟨?_, by decide, by decide, by decide⟩
  refine ⟨by decide, by decide, by decide, by decide, ?_⟩
  exact ⟨_, _, rfl, rfl, by decide +kernel⟩

end Recognizer

end FolderWatch
