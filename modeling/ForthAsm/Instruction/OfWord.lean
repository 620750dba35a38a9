import ForthAsm.CompileFailure
import ForthAsm.Instruction.Basic
import ForthAsm.Instruction.Literal

/-!
# From words to instructions

A word of digits is a literal and nothing else; it fails if its value does not fit a machine
word. Any other word names an operation or is unrecognized. Only a stack dump draws from the
supply of loop numbers, and a failure leaves the supply as it was.
-/

namespace ForthAsm

/-- The instruction that a word stands for, and the loop numbers left after it. -/
def Instruction.ofWord (word : Word) (supply : LoopSupply) :
    Except CompileFailure Instruction × LoopSupply :=
  if Literal.isNumeral word.text then
    match Literal.value? word.text with
    | some value => (.ok (.push value), supply)
    | none => (.error (.literalOutOfRange word), supply)
  else if word.text = dumpName then
    (.ok (.dump supply.draw.1), supply.draw.2)
  else
    (.ok ((ofName? word.text).getD (.unrecognized word.text)), supply)

namespace Instruction

/-- The only failure is the word itself, and it leaves the supply as it was. -/
theorem ofWord_eq_of_error {word : Word} {supply later : LoopSupply} {failure : CompileFailure}
    (failed : ofWord word supply = (.error failure, later)) :
    failure = .literalOutOfRange word ∧ later = supply := by
  unfold ofWord at failed
  split at failed
  · split at failed
    · simp at failed
    · simp only [Prod.mk.injEq, Except.error.injEq] at failed
      exact ⟨failed.1.symm, failed.2.symm⟩
  · split at failed <;> simp at failed

/-- A word other than the one for a stack dump leaves the supply as it was. -/
theorem ofWord_supply_of_ne {word : Word} (other : word.text ≠ dumpName)
    (supply : LoopSupply) : (ofWord word supply).2 = supply := by
  unfold ofWord
  split
  · split <;> rfl
  · rfl

end Instruction

end ForthAsm
