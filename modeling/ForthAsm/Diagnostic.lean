import ForthAsm.Source.Word

/-!
# Diagnostics

A word that the compiler does not know is skipped and reported; it never stops a compilation.
-/

namespace ForthAsm

/-- A finding that is reported while compilation goes on. -/
inductive Diagnostic where
  /-- A word that is neither a literal nor an operation. -/
  | unrecognized (word : Word)
  deriving DecidableEq, Repr

namespace Diagnostic

/-- The word that a diagnostic is about. -/
def word : Diagnostic → Word
  | unrecognized word => word

/-- Where the word of a diagnostic starts. -/
def position (diagnostic : Diagnostic) : Position :=
  diagnostic.word.position

/-- The text of a diagnostic, without its position. -/
def message : Diagnostic → String
  | unrecognized word => "Unrecognized token: " ++ word.text

end Diagnostic

end ForthAsm
