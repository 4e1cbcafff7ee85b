import FolderWatch.Path

/-!
The order of paths: component lists are compared lexicographically, the root before `.`, `.` before
`..`, and those before names, which compare by bytes. Two paths compare equal exactly when they are
spellings of one path.
-/

namespace FolderWatch

namespace Component

def rank : Component → Nat
  | root => 0
  | here => 1
  | parent => 2
  | name _ => 3

def bytes : Component → List UInt8
  | name bytes => bytes
  | _ => []

instance : Ord Component where
  compare := compareLex (compareOn rank) (compareOn bytes)

instance : Std.TransOrd Component :=
  inferInstanceAs (Std.TransCmp (compareLex (compareOn rank) (compareOn bytes)))

instance : Std.LawfulEqOrd Component where
  compare_self {component} := Std.ReflCmp.compare_self
  eq_of_compare {left right} equal := by
    change compareLex (compareOn rank) (compareOn bytes) left right = .eq at equal
    simp only [compareLex_eq_eq, compareOn] at equal
    have sameRank : left.rank = right.rank := Std.LawfulEqCmp.eq_of_compare equal.1
    have sameBytes : left.bytes = right.bytes := Std.LawfulEqCmp.eq_of_compare equal.2
    cases left <;> cases right <;> simp_all [rank, bytes]

end Component

namespace Path

instance : Ord Path where
  compare := compareOn components

instance : Std.TransOrd Path :=
  inferInstanceAs (Std.TransCmp (compareOn components))

theorem compare_def (left right : Path) :
    compare left right = compare left.components right.components := rfl

theorem compare_eq_iff_same {left right : Path} : compare left right = .eq ↔ Same left right :=
  show compare left.components right.components = .eq ↔ _ from Std.LawfulEqOrd.compare_eq_iff_eq

theorem Same.compare_left {left left' : Path} (same : Same left left') (right : Path) :
    compare left right = compare left' right := by
  rw [compare_def, compare_def, show left.components = left'.components from same]

theorem Same.compare_right {right right' : Path} (same : Same right right') (left : Path) :
    compare left right = compare left right' := by
  rw [compare_def, compare_def, show right.components = right'.components from same]

def Before (left right : Path) : Prop := compare left right = .lt

instance (left right : Path) : Decidable (Before left right) :=
  inferInstanceAs (Decidable (compare left right = .lt))

theorem Before.trans {left middle right : Path} (first : Before left middle)
    (second : Before middle right) : Before left right :=
  Std.TransCmp.lt_trans first second

theorem Before.not_same {left right : Path} (before : Before left right) : ¬ Same left right := by
  intro same
  rw [Before, compare_eq_iff_same.2 same] at before
  cases before

theorem before_of_gt {left right : Path} (greater : compare left right = .gt) :
    Before right left :=
  Std.OrientedCmp.lt_of_gt greater

end Path

end FolderWatch
