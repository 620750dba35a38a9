import ForthAsm.Compilation
import ForthAsm.Files.System

/-!
# Artifacts

A file is compiled in three steps: the words of the source are read, they are compiled, and the
program is written as an artifact. A step that fails ends the compilation, so nothing is written
unless the first two succeed. `FileSystem.compile` says this once for all file systems, and
`Tree.compile` is the case of a tree of files.
-/

namespace ForthAsm

/-- A text that is to be stored in a file. -/
structure Artifact where
  /-- The path of the file. -/
  path : String
  /-- The text of the file. -/
  text : String
  deriving DecidableEq, Repr

namespace Artifact

/-- The bytes of the file. -/
def content (artifact : Artifact) : List UInt8 :=
  artifact.text.toUTF8.toList

/-- What became of an artifact, given how writing it ended. -/
def outcome (artifact : Artifact) :
    Except IoFailure Unit → Logged (Except CompileFailure Unit)
  | .ok () => ⟨.ok (), #[.wrote artifact.text.utf8ByteSize artifact.path]⟩
  | .error cause => ⟨.error (.writeOutput artifact.path cause), #[]⟩

end Artifact

namespace Compilation

/-- The compilation of a source file, given how reading its words ended. -/
def ofReading (path : String) :
    Except IoFailure (List Word) → Logged (Except CompileFailure Compilation)
  | .ok words => ofWords words
  | .error cause => ⟨.error (.readSource path cause), #[]⟩

/-- The program of a compilation, to be stored at a path. -/
def artifact (compiled : Compilation) (path : String) : Artifact :=
  ⟨path, compiled.assembly⟩

/-- A compilation after what was logged, given what became of its artifact. -/
def conclude (compiled : Compilation) (log : Array Record)
    (storing : Logged (Except CompileFailure Unit)) :
    Logged (Except CompileFailure Compilation) :=
  ⟨storing.outcome.map fun _ => compiled, log ++ storing.log⟩

end Compilation

namespace FileSystem

variable {m : Type → Type} [Monad m] {Handle : Type} (system : FileSystem m Handle)

/-- The words of the file at a path, read to its end. -/
def words (path : String) : m (Except IoFailure (List Word)) := do
  match ← system.openSource path with
  | .error cause => return .error cause
  | .ok deliveries => return (Stream.ofDeliveries deliveries).words

/-- Store an artifact. -/
def store (artifact : Artifact) : m (Logged (Except CompileFailure Unit)) := do
  return artifact.outcome (← system.write artifact.path artifact.content)

/-- Store the program of a compilation at a path, if the compilation has one. -/
def emit (output : String) :
    Logged (Except CompileFailure Compilation) → m (Logged (Except CompileFailure Compilation))
  | ⟨.error failure, log⟩ => return ⟨.error failure, log⟩
  | ⟨.ok compiled, log⟩ => do
    return compiled.conclude log (← system.store (compiled.artifact output))

/-- Compile a source file into an output file. -/
def compile (source output : String) : m (Logged (Except CompileFailure Compilation)) := do
  system.emit output (Compilation.ofReading source (← system.words source))

end FileSystem

namespace Tree

/-- Store an artifact in a tree. -/
def store (tree : Tree) (artifact : Artifact) : Logged (Except CompileFailure Unit) × Tree :=
  (freeSystem.store artifact).run tree

/-- Compile a source file of a tree into an output file of the tree. -/
def compile (tree : Tree) (source output : String) :
    Logged (Except CompileFailure Compilation) × Tree :=
  (freeSystem.compile source output).run tree

end Tree

end ForthAsm
