import ForthAsm.Files.Path

/-!
# Places

A place is told by the names along which it is reached from the root. The working directory is a
place like any other, so all ways to a place, through the root or through the directories above
the working directory, end in the same location.
-/

namespace ForthAsm

/-- A place. -/
structure Location where
  /-- The names along which the place is reached from the root. -/
  names : List String
  deriving DecidableEq, Repr

namespace Location

/-- The directory that holds all others. -/
def root : Location := ⟨[]⟩

/-- The directory that a place stands in; the root stands in itself. -/
def parent (location : Location) : Location :=
  ⟨location.names.dropLast⟩

/-- The place with a given name in a directory. -/
def child (location : Location) (name : String) : Location :=
  ⟨location.names ++ [name]⟩

/-- Whether a place is another one or lies on the way from the root to it. -/
def isOnWayTo (location other : Location) : Bool :=
  location.names.isPrefixOf other.names

end Location

end ForthAsm
