import ForthAsm.Source.Stream
import ForthAsm.Draft

/-!
# Compilations

A compilation reads all words of its source before it takes the first one, so a source that
cannot be read to its end fails with that failure, whatever its words are. Then the words are
taken in order; the first literal that does not fit ends the compilation.
-/

namespace ForthAsm

/-- The result of a compilation. -/
structure Compilation where
  /-- The text of the program. -/
  assembly : String
  /-- The words that were skipped, in source order. -/
  diagnostics : List Diagnostic
  deriving DecidableEq, Repr

/-- What a draft has made. -/
def Draft.result (draft : Draft) : Compilation :=
  ⟨draft.program.text, draft.diagnostics.toList⟩

namespace Compilation

/-- Compile a list of words. -/
def ofWords (words : List Word) : Logged (Except CompileFailure Compilation) :=
  match Draft.fresh.takeAll #[] words with
  | ⟨.error failure, log⟩ => ⟨.error failure, log⟩
  | ⟨.ok draft, log⟩ => ⟨.ok draft.result, log.push draft.summary⟩

/-- Compile a source in memory. -/
def ofBytes (source : List UInt8) : Logged (Except CompileFailure Compilation) :=
  ofWords (Word.allOfBytes source)

/-- Compile a source as it is delivered. -/
def ofDeliveries (deliveries : List Delivery) : Logged (Except CompileFailure Compilation) :=
  match (Stream.ofDeliveries deliveries).words with
  | .ok words => ofWords words
  | .error cause => ⟨.error (.read cause), #[]⟩

end Compilation

end ForthAsm
