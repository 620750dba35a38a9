import ForthAsm.Instruction.LoopNumber

/-!
# Machine operations

The x86-64 operations that compiled programs use, with their operands, and their text in
AT&T syntax: the source of an operation stands before its target, registers have a percent
sign and immediate values a dollar sign.
-/

namespace ForthAsm

/-- A 64-bit register. -/
inductive Register where
  | rax
  | rbx
  | rcx
  | rsi
  | rdi
  | rsp
  | rbp
  | r12
  deriving DecidableEq, Repr

namespace Register

/-- A register as an operand. -/
def text : Register → String
  | rax => "%rax"
  | rbx => "%rbx"
  | rcx => "%rcx"
  | rsi => "%rsi"
  | rdi => "%rdi"
  | rsp => "%rsp"
  | rbp => "%rbp"
  | r12 => "%r12"

/-- The lower half of a register as an operand. -/
def lowText : Register → String
  | rax => "%eax"
  | rbx => "%ebx"
  | rcx => "%ecx"
  | rsi => "%esi"
  | rdi => "%edi"
  | rsp => "%esp"
  | rbp => "%ebp"
  | r12 => "%r12d"

end Register

/-- A place in a program that other places refer to. -/
inductive Label where
  /-- The format that numbers are printed with. -/
  | format
  /-- The place where the program starts. -/
  | entry
  /-- The top of the loop with a given number. -/
  | loopTop (loop : LoopNumber)
  /-- The place behind the loop with a given number. -/
  | loopEnd (loop : LoopNumber)
  deriving DecidableEq, Repr

/-- The name of a label. -/
def Label.name : Label → String
  | format => "fmt"
  | entry => "_start"
  | loopTop loop => loop.topName
  | loopEnd loop => loop.endName

/-- A routine outside the program. -/
inductive Routine where
  /-- Print values in a given format. -/
  | print
  /-- Write out what was printed and is still held back. -/
  | flush
  deriving DecidableEq, Repr

/-- The name of a routine. -/
def Routine.name : Routine → String
  | print => "printf"
  | flush => "fflush"

/-- A machine operation and its operands. -/
inductive Operation where
  /-- Push a sign-extended 32-bit value. -/
  | pushImmediate (value : Int)
  /-- Push a register. -/
  | push (source : Register)
  /-- Pop into a register. -/
  | pop (target : Register)
  /-- Set a register to a 64-bit value. -/
  | moveWide (value : Int) (target : Register)
  /-- Set a register to a sign-extended 32-bit value. -/
  | moveImmediate (value : Int) (target : Register)
  /-- Copy a register. -/
  | move (source target : Register)
  /-- Copy the memory that a register points to into a register. -/
  | load (pointer target : Register)
  /-- Set a register to the address of a label. -/
  | address (label : Label) (target : Register)
  /-- Add a register to a register. -/
  | add (source target : Register)
  /-- Add a value to a register. -/
  | addImmediate (value : Int) (target : Register)
  /-- Subtract a value from a register. -/
  | subtractImmediate (value : Int) (target : Register)
  /-- Multiply a register by a register. -/
  | multiply (source target : Register)
  /-- Combine a register with a value by bitwise conjunction. -/
  | andImmediate (value : Int) (target : Register)
  /-- Combine two registers by bitwise exclusive disjunction. -/
  | exclusiveOr (source target : Register)
  /-- Combine the lower halves of two registers by bitwise exclusive disjunction. -/
  | exclusiveOrLow (source target : Register)
  /-- Compare the second register with the first. -/
  | compare (source target : Register)
  /-- Go to a label. -/
  | jump (label : Label)
  /-- Go to a label if the last comparison found a smaller signed number. -/
  | jumpLess (label : Label)
  /-- Call a routine. -/
  | call (routine : Routine)
  /-- Ask the operating system for a service. -/
  | systemCall
  deriving DecidableEq, Repr

namespace Operation

/-- A value as an operand. -/
def immediate (value : Int) : String :=
  "$" ++ toString value

/-- An operation with one operand. -/
def unary (name operand : String) : String :=
  name ++ " " ++ operand

/-- An operation with two operands. -/
def binary (name source target : String) : String :=
  name ++ " " ++ source ++ ", " ++ target

/-- The text of an operation. -/
def text : Operation → String
  | pushImmediate value => unary "push" (immediate value)
  | push source => unary "push" source.text
  | pop target => unary "pop" target.text
  | moveWide value target => binary "movabs" (immediate value) target.text
  | moveImmediate value target => binary "mov" (immediate value) target.text
  | move source target => binary "mov" source.text target.text
  | load pointer target => binary "mov" ("(" ++ pointer.text ++ ")") target.text
  | address label target => binary "lea" (label.name ++ "(%rip)") target.text
  | add source target => binary "add" source.text target.text
  | addImmediate value target => binary "add" (immediate value) target.text
  | subtractImmediate value target => binary "sub" (immediate value) target.text
  | multiply source target => binary "imul" source.text target.text
  | andImmediate value target => binary "and" (immediate value) target.text
  | exclusiveOr source target => binary "xor" source.text target.text
  | exclusiveOrLow source target => binary "xor" source.lowText target.lowText
  | compare source target => binary "cmp" source.text target.text
  | jump label => unary "jmp" label.name
  | jumpLess label => unary "jl" label.name
  | call routine => unary "call" routine.name
  | systemCall => "syscall"

end Operation

end ForthAsm
