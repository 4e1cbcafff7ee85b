import FolderWatch.Recognizer

/-!
Registries hold objects in the order in which they were added, as often as they were added. An
object is removed by what it is, not by what it is like: the objects that a monitor makes itself are
nobody else's, so nobody can remove them.
-/

namespace FolderWatch

inductive Identity where
  | held (tag : String)
  /-- An object that was made inside and never handed out. -/
  | internal (serial : Nat)
  deriving DecidableEq, Repr

inductive ActivityKind where
  | builtIn (recognizer : Recognizer)
  | custom (name : String)
  deriving DecidableEq, Repr

def ActivityKind.name : ActivityKind → String
  | builtIn recognizer => recognizer.name
  | custom name => name

structure Activity where
  identity : Identity
  kind : ActivityKind
  deriving DecidableEq, Repr

structure Subscriber where
  identity : Identity
  deriving DecidableEq, Repr

class Identified (α : Type) where
  identity : α → Identity

instance : Identified Activity := ⟨Activity.identity⟩
instance : Identified Subscriber := ⟨Subscriber.identity⟩

abbrev Registry (α : Type) := List α

namespace Registry

variable {α : Type} [Identified α]

def add (registry : Registry α) (item : α) : Registry α := registry ++ [item]

def holds (registry : Registry α) (identity : Identity) : Bool :=
  registry.any fun item => Identified.identity item = identity

/-- Takes the earliest registration of an object away, if it has one. -/
def remove (registry : Registry α) (identity : Identity) : Registry α :=
  registry.eraseP fun item => Identified.identity item = identity

end Registry

end FolderWatch
