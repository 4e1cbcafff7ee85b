import FolderWatch.Path.Order

/-!
What one scan sees of one file: its path, its length and when it was last modified.
-/

namespace FolderWatch

structure FileRecord where
  path : Path
  length : UInt64
  /-- Milliseconds since the epoch. -/
  modified : Int64
  deriving DecidableEq, Repr, Inhabited

namespace FileRecord

/-- Length or modification time differ; paths play no part. -/
def Differs (left right : FileRecord) : Prop :=
  left.length ≠ right.length ∨ left.modified ≠ right.modified

instance (left right : FileRecord) : Decidable (Differs left right) :=
  inferInstanceAs (Decidable (_ ∨ _))

def Same (left right : FileRecord) : Prop :=
  left.path.Same right.path ∧ left.length = right.length ∧ left.modified = right.modified

instance (left right : FileRecord) : Decidable (Same left right) :=
  inferInstanceAs (Decidable (_ ∧ _ ∧ _))

theorem differs_comm {left right : FileRecord} : left.Differs right ↔ right.Differs left := by
  simp only [Differs, ne_comm]

theorem Same.refl (record : FileRecord) : record.Same record := ⟨.refl _, rfl, rfl⟩

theorem Same.symm {left right : FileRecord} (same : left.Same right) : right.Same left :=
  ⟨same.1.symm, same.2.1.symm, same.2.2.symm⟩

theorem Same.trans {left middle right : FileRecord} (first : left.Same middle)
    (second : middle.Same right) : left.Same right :=
  ⟨first.1.trans second.1, first.2.1.trans second.2.1, first.2.2.trans second.2.2⟩

theorem same_iff_not_differs {left right : FileRecord} (paths : left.path.Same right.path) :
    left.Same right ↔ ¬ left.Differs right := by
  simp [Same, Differs, paths]

end FileRecord

structure Instant where
  seconds : Int
  nanos : Nat
  deriving DecidableEq, Repr, Inhabited

namespace Instant

def ofNanos (nanos : Int) : Instant :=
  ⟨nanos / 1000000000, (nanos % 1000000000).toNat⟩

def toNanos (instant : Instant) : Int :=
  instant.seconds * 1000000000 + instant.nanos

/-- Whole milliseconds from the epoch, cut toward it on both sides. -/
def millis (instant : Instant) : Int :=
  instant.toNanos.tdiv 1000000

/-- The milliseconds of a record: the distance to the epoch in one word, negated before it. -/
def epochMillis (instant : Instant) : Int64 :=
  if 0 ≤ instant.toNanos then Int64.ofInt instant.millis
  else -Int64.ofInt (-instant.millis)

theorem toNanos_ofNanos (nanos : Int) : (ofNanos nanos).toNanos = nanos := by
  simp only [ofNanos, toNanos]
  omega

end Instant

end FolderWatch
