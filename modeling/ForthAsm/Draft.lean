import ForthAsm.Diagnostic
import ForthAsm.Instruction.OfWord
import ForthAsm.Assembly.Program
import ForthAsm.Log.Record

/-!
# Drafts

A draft takes words one after another and keeps what they amount to: the loop numbers used,
the program so far and the diagnostics raised. A word that fails leaves it as it was, so a
draft can be used on after a failure.
-/

namespace ForthAsm

/-- A program in the making. -/
structure Draft where
  /-- The loop numbers that are left. -/
  loops : LoopSupply
  /-- The blocks of the words so far. -/
  program : Program
  /-- What was reported about the words so far. -/
  diagnostics : Array Diagnostic
  deriving DecidableEq, Repr

namespace Draft

/-- A draft that has seen no words. -/
def fresh : Draft :=
  ⟨LoopSupply.fresh, Program.empty, #[]⟩

/-- Take the instruction of a word: append its block, or report the word if it has none. -/
def append (draft : Draft) (word : Word) (instruction : Instruction) : Draft :=
  match Block.ofInstruction? instruction with
  | some block => { draft with program := draft.program.push block }
  | none => { draft with diagnostics := draft.diagnostics.push (.unrecognized word) }

/-- Take a word. The outcome is a record of the instruction it became, or a failure. -/
def take (draft : Draft) (word : Word) : Except CompileFailure Record × Draft :=
  match Instruction.ofWord word draft.loops with
  | (.error failure, loops) => (.error failure, { draft with loops })
  | (.ok instruction, loops) =>
    (.ok (.taken word instruction), { draft with loops }.append word instruction)

/-- A word that fails leaves the draft as it was. -/
theorem take_eq_of_error {draft later : Draft} {word : Word} {failure : CompileFailure}
    (failed : draft.take word = (.error failure, later)) : later = draft := by
  unfold take at failed
  split at failed
  · rename_i cause loops classified
    obtain ⟨_, same⟩ := Instruction.ofWord_eq_of_error classified
    simp only [Prod.mk.injEq] at failed
    rw [← failed.2, same]
  · simp at failed

/-- The record of a finished program. -/
def summary (draft : Draft) : Record :=
  .finished draft.program.size draft.loops.drawn.toNat draft.diagnostics.size

/-- Take words until one fails, after what was logged already. -/
def takeAll (draft : Draft) (log : Array Record) :
    List Word → Logged (Except CompileFailure Draft)
  | [] => ⟨.ok draft, log⟩
  | word :: words =>
    match draft.take word with
    | (.error failure, _) => ⟨.error failure, log⟩
    | (.ok record, draft) => draft.takeAll (log.push record) words

end Draft

end ForthAsm
