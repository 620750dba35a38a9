import ForthAsm.IoFailure
import ForthAsm.Text.Cut

/-!
# Paths

A path is a text with slashes between names. Empty names mean nothing, except that a slash at
the start means the root and a slash at the end asks for a directory. Some texts are refused
before anything is looked up.
-/

namespace ForthAsm

/-- A path, taken apart. -/
structure Path where
  /-- The names that are not empty, from left to right. -/
  names : List String
  /-- Whether the path starts with a slash. -/
  isAbsolute : Bool
  /-- Whether the path ends in a slash. -/
  endsInSlash : Bool
  deriving DecidableEq, Repr

namespace Path

/-- The number of bytes from which on a path is too long. -/
def pathLimit : Nat := 4096

/-- The number of bytes that a name has at most. -/
def nameLimit : Nat := 255

/-- Take a path apart, unless it is refused as it stands. -/
def parse (text : String) : Except IoFailure Path :=
  if '\x00' ∈ text.toList then .error .nulInPath
  else if pathLimit ≤ text.utf8ByteSize then .error .nameTooLong
  else if text.toList.isEmpty then .error .notFound
  else .ok {
    names := ((cutAt '/' text.toList).filter (!·.isEmpty)).map String.ofList
    isAbsolute := text.toList.head? = some '/'
    endsInSlash := text.toList.getLast? = some '/' }

end Path

end ForthAsm
