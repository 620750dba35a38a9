import ForthAsm.Assembly.Block

/-!
# Programs

A program is a sequence of blocks. Its text opens with the print format and the entry
point, then gives every block behind an empty line, and ends with the exit of the process.
-/

namespace ForthAsm

/-- The blocks of a program, in order. -/
structure Program where
  /-- The blocks, the first one first. -/
  blocks : Array Block
  deriving DecidableEq, Repr

namespace Program

/-- A program that does nothing. -/
def empty : Program := ⟨#[]⟩

/-- The program with one more block at its end. -/
def push (program : Program) (block : Block) : Program :=
  ⟨program.blocks.push block⟩

/-- The number of blocks. -/
def size (program : Program) : Nat :=
  program.blocks.size

/-- The lines before the blocks: the format that prints a number on a line of its own, and
the entry point, which remembers where the stack began. -/
def opening : List Line :=
  [.segment .readOnlyData,
    .blank,
    .label .format,
    .characters "%ld\\n",
    .blank,
    .segment .code,
    .global .entry,
    .label .entry,
    .operation Line.margin (.move .rsp .rbp)]

/-- The lines behind the blocks: align the stack, write out what was printed, and leave the
process with status zero. The first of them stands at the start of its line. -/
def closing : List Line :=
  .operation 0 (.andImmediate (-16) .rsp) ::
    Block.atMargin
      [.exclusiveOrLow .rdi .rdi,
        .call .flush,
        .moveImmediate 60 .rax,
        .moveImmediate 0 .rdi,
        .systemCall]

/-- All lines of a program. -/
def lines (program : Program) : List Line :=
  opening ++ program.blocks.toList.flatMap (fun block => .blank :: block.lines) ++
    .blank :: closing

/-- The text of a program. -/
def text (program : Program) : String :=
  Line.textOf program.lines

end Program

end ForthAsm
