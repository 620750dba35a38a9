import ForthAsm.Instruction.LoopNumber
import ForthAsm.Instruction.StackEffect

/-!
# Instructions

The instructions of the language: literals, eight operations on the stack, and a place for
the words that are none of these.
-/

namespace ForthAsm

/-- What a word asks for. -/
inductive Instruction where
  /-- Put a number on the stack. -/
  | push (value : UInt64)
  /-- Put a copy of the top on the stack. -/
  | duplicate
  /-- Replace the two topmost numbers by their product. -/
  | multiply
  /-- Take the top from the stack and print it. -/
  | print
  /-- Replace the two topmost numbers by their sum. -/
  | add
  /-- Exchange the two topmost numbers. -/
  | swap
  /-- Drop the number below the top. -/
  | nip
  /-- Put a copy of the top below the two topmost numbers. -/
  | tuck
  /-- Print the whole stack, the oldest number first; the walk is a loop with its own number. -/
  | dump (loop : LoopNumber)
  /-- A word with no meaning. -/
  | unrecognized (text : String)
  deriving DecidableEq, Repr

namespace Instruction

/-- What an instruction does to the depth of the stack. -/
def effect : Instruction → StackEffect
  | push _ => ⟨0, 1⟩
  | duplicate => ⟨1, 2⟩
  | multiply => ⟨2, 1⟩
  | print => ⟨1, 0⟩
  | add => ⟨2, 1⟩
  | swap => ⟨2, 2⟩
  | nip => ⟨2, 1⟩
  | tuck => ⟨2, 3⟩
  | dump _ => ⟨0, 0⟩
  | unrecognized _ => ⟨0, 0⟩

/-- The word that asks for a stack dump, the only operation with a loop. -/
def dumpName : String := ".s"

/-- The operation that a word names, for the operations without a loop. -/
def ofName? : String → Option Instruction
  | "dup" => some duplicate
  | "*" => some multiply
  | "." => some print
  | "+" => some add
  | "swap" => some swap
  | "nip" => some nip
  | "tuck" => some tuck
  | _ => none

end Instruction

end ForthAsm
