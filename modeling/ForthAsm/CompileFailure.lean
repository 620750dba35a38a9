import ForthAsm.IoFailure
import ForthAsm.Source.Word

/-!
# Failures that end a compilation

A compilation ends without a result when its source cannot be read, when its output cannot
be written, or at the first literal that does not fit a machine word.
-/

namespace ForthAsm

/-- Why a compilation has no result. -/
inductive CompileFailure where
  /-- The source file cannot be opened or read. -/
  | readSource (path : String) (cause : IoFailure)
  /-- The stream that delivers the source failed. -/
  | read (cause : IoFailure)
  /-- The output file cannot be written. -/
  | writeOutput (path : String) (cause : IoFailure)
  /-- A literal is too large for a machine word. -/
  | literalOutOfRange (word : Word)
  deriving DecidableEq, Repr

/-- The text of a failure. -/
def CompileFailure.message : CompileFailure → String
  | readSource path cause => "unable to read " ++ path ++ ": " ++ cause.message
  | read cause => "unable to read source: " ++ cause.message
  | writeOutput path cause => "unable to write " ++ path ++ ": " ++ cause.message
  | literalOutOfRange word =>
    word.position.text ++ ": literal " ++ word.text ++ " does not fit in 64 bits"

end ForthAsm
