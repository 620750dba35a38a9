import ForthAsm.Assembly.Line
import ForthAsm.Instruction.Basic

/-!
# Blocks

The code of one instruction. Compiled programs keep their numbers on the machine stack, one
word each, and `%rbp` points to where it began, so every instruction works on the stack with
pushes and pops.
-/

namespace ForthAsm

/-- The code of one instruction. -/
structure Block where
  /-- The lines of the code. -/
  lines : List Line
  deriving DecidableEq, Repr

namespace Block

/-- The text of a block. -/
def text (block : Block) : String :=
  Line.textOf block.lines

/-- Lines that hold operations at the margin. -/
def atMargin (operations : List Operation) : List Line :=
  operations.map (.operation Line.margin)

/-- The largest value that a push of an immediate value can extend without changing it. -/
def largestImmediate : Nat := 2147483647

/-- Push a number: at once if it is small, and through a register otherwise. -/
def pushNumber (value : UInt64) : List Operation :=
  if value.toNat ≤ largestImmediate then [.pushImmediate value.toNat]
  else [.moveWide value.toNat .rax, .push .rax]

/-- Print the number in `%rsi`. The stack may have any depth, so the call is made on an
aligned stack, and the real stack pointer survives in a register that calls preserve. -/
def printNumber : List Operation :=
  [.address .format .rdi,
    .exclusiveOr .rax .rax,
    .move .rsp .r12,
    .andImmediate (-16) .rsp,
    .call .print,
    .move .r12 .rsp]

/-- Print the stack from its first slot up to its top. The pointer of the walk is kept on the
stack while a number is printed. -/
def dumpStack (loop : LoopNumber) : List Line :=
  atMargin [.move .rbp .rbx, .subtractImmediate 8 .rbx] ++
  [.label (.loopTop loop)] ++
  atMargin [.compare .rsp .rbx, .jumpLess (.loopEnd loop), .load .rbx .rsi, .push .rbx] ++
  atMargin printNumber ++
  atMargin [.pop .rbx, .subtractImmediate 8 .rbx, .jump (.loopTop loop)] ++
  [.label (.loopEnd loop)]

/-- The code of an instruction; a word with no meaning has none. -/
def ofInstruction? : Instruction → Option Block
  | .push value => some ⟨atMargin (pushNumber value)⟩
  | .duplicate => some ⟨atMargin [.pop .rax, .push .rax, .push .rax]⟩
  | .multiply => some ⟨atMargin [.pop .rbx, .pop .rcx, .multiply .rbx .rcx, .push .rcx]⟩
  | .print => some ⟨atMargin (.pop .rsi :: printNumber)⟩
  | .add => some ⟨atMargin [.pop .rbx, .pop .rax, .add .rbx .rax, .push .rax]⟩
  | .swap => some ⟨atMargin [.pop .rax, .pop .rbx, .push .rax, .push .rbx]⟩
  | .nip => some ⟨atMargin [.pop .rax, .addImmediate 8 .rsp, .push .rax]⟩
  | .tuck => some ⟨atMargin [.pop .rax, .pop .rbx, .push .rax, .push .rbx, .push .rax]⟩
  | .dump loop => some ⟨dumpStack loop⟩
  | .unrecognized _ => none

end Block

end ForthAsm
