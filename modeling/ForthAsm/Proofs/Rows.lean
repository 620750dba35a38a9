import ForthAsm.Proofs.Labels
import ForthAsm.Proofs.Scan

/-!
# The rows of an assembly text

What can be seen in the text of a compiled program row by row, whatever its words were. The
rows that define labels are known in advance, a jump never leaves the block that it stands in,
and every other row is one of finitely many fixed ones or writes a single number. So nothing of
a word without a meaning or of a comment gets into the text.

Main statement: `Compilation.wellFormed_assembly`.
-/

namespace ForthAsm

/-- The rows of a text are the stretches between its line feeds. -/
def rowsOf (text : String) : List String :=
  (cutAt '\n' text.toList).map String.ofList

/-- Whether a row defines a label. -/
def definesLabel (row : String) : Bool :=
  row.toList.getLast? == some ':'

/-- A row is a jump to a target, on a condition or without one. -/
def JumpsTo (row target : String) : Prop :=
  ∃ margin, row = Line.blanks margin ++ "jl " ++ target ∨
    row = Line.blanks margin ++ "jmp " ++ target

/-- A row writes a number of 64 bits in decimal digits. -/
def WritesNumber (row : String) : Prop :=
  ∃ value : UInt64, row = "    push $" ++ toString value.toNat ∨
    row = "    movabs $" ++ toString value.toNat ++ ", %rax"

/-- The rows at the start and at the end of every program. -/
def Program.fixedRows : List String :=
  [".section .rodata",
    "",
    "fmt:",
    "    .asciz \"%ld\\n\"",
    ".section .text",
    ".globl _start",
    "_start:",
    "    mov %rsp, %rbp",
    "and $-16, %rsp",
    "    xor %edi, %edi",
    "    call fflush",
    "    mov $60, %rax",
    "    mov $0, %rdi",
    "    syscall"]

/-- The rows of blocks that are the same wherever they occur. -/
def Block.fixedRows : List String :=
  ["    pop %rax",
    "    pop %rbx",
    "    pop %rcx",
    "    pop %rsi",
    "    push %rax",
    "    push %rbx",
    "    push %rcx",
    "    imul %rbx, %rcx",
    "    add %rbx, %rax",
    "    add $8, %rsp",
    "    lea fmt(%rip), %rdi",
    "    xor %rax, %rax",
    "    mov %rsp, %r12",
    "    and $-16, %rsp",
    "    call printf",
    "    mov %r12, %rsp",
    "    mov %rbp, %rbx",
    "    sub $8, %rbx",
    "    cmp %rsp, %rbx",
    "    mov (%rbx), %rsi"]

/-- The labels of a number of dumps are defined, jumps stay in their blocks, and no other row
depends on anything but a number. -/
structure WellFormed (assembly : String) (dumps : Nat) : Prop where
  /-- The rows that define labels, in order. -/
  labels : (rowsOf assembly).filter definesLabel =
    "fmt:" :: "_start:" :: (List.range dumps).flatMap fun index =>
      ["dots_loop_" ++ toString index ++ ":", "dots_done_" ++ toString index ++ ":"]
  /-- No label is defined twice. -/
  distinct : ((rowsOf assembly).filter definesLabel).Nodup
  /-- The target of a jump is defined in the block of the jump: no empty row, which would divide
  two blocks, stands between them. -/
  jumps : ∀ (index : Nat) (row target : String), (rowsOf assembly)[index]? = some row →
    JumpsTo row target → ∃ place : Nat, (rowsOf assembly)[place]? = some (target ++ ":") ∧
      ∀ between : Nat, min index place ≤ between → between ≤ max index place →
        (rowsOf assembly)[between]? ≠ some ""
  /-- All other rows are empty, fixed or write a number. -/
  others : ∀ row ∈ rowsOf assembly, definesLabel row = true ∨ (∃ target, JumpsTo row target) ∨
    row = "" ∨ row ∈ Program.fixedRows ∨ row ∈ Block.fixedRows ∨ WritesNumber row
  /-- All characters belong to ASCII. -/
  ascii : ∀ character ∈ assembly.toList, character.toNat < 128

namespace Line

/-- The label that a line jumps to. -/
def target? : Line → Option Label
  | operation _ (.jump place) => some place
  | operation _ (.jumpLess place) => some place
  | _ => none

/-- A row defines a label exactly if its line does. -/
theorem definesLabel_text (line : Line) : definesLabel line.text = line.defined?.isSome := by
  have without : ∀ {row : String}, ':' ∉ row.toList → definesLabel row = false := by
    intro row absent
    rw [definesLabel, beq_eq_false_iff_ne]
    intro last
    exact absent (List.mem_of_getLast? last)
  cases line with
  | blank => rfl
  | segment kind => cases kind <;> decide
  | global place =>
    apply without
    have inline : ':' ∉ place.name.toList :=
      fun there => (plain_of_symbol? place.symbol?_name _ there).2.2.1 rfl
    simp [text, inline]
  | label place => simp [definesLabel, text, defined?]
  | characters quoted =>
    rw [definesLabel, text, String.toList_append, show "\"".toList = ['"'] from rfl,
      List.getLast?_concat]
    rfl
  | operation indent content =>
    apply without
    have inline : ':' ∉ content.text.toList :=
      fun there => (inlineText_operation content _ there).1 rfl
    simp [text, inline]

/-- Only an empty line has an empty row. -/
theorem text_eq_empty {line : Line} (empty : line.text = "") : line = .blank := by
  have characters := congrArg String.toList empty
  cases line with
  | blank => rfl
  | operation indent content =>
    cases content <;> simp [text, Operation.text, Operation.unary, Operation.binary] at characters
  | _ => simp [text] at characters

/-- What a line says behind its margin, if it is a jump, is the name of the jump and its
target. -/
theorem dropWhile_text_of_jumpsTo {line : Line} {target : String}
    (jumps : JumpsTo line.text target) :
    line.text.toList.dropWhile (· == ' ') = "jl ".toList ++ target.toList ∨
      line.text.toList.dropWhile (· == ' ') = "jmp ".toList ++ target.toList := by
  obtain ⟨margin, jumps | jumps⟩ := jumps
  · left
    rw [jumps, String.toList_append, String.toList_append, toList_blanks, List.append_assoc,
      dropWhile_replicate]
    rfl
  · right
    rw [jumps, String.toList_append, String.toList_append, toList_blanks, List.append_assoc,
      dropWhile_replicate]
    rfl

/-- A row that jumps to a target is the row of a jump to that label. -/
theorem target?_of_jumpsTo {line : Line} {target : String} (jumps : JumpsTo line.text target) :
    ∃ place, line.target? = some place ∧ place.name = target := by
  have content := dropWhile_text_of_jumpsTo jumps
  cases line with
  | blank => simp [text] at content
  | segment kind => cases kind <;> simp [text, Segment.name] at content
  | global place => simp [text] at content
  | characters quoted => simp [text] at content
  | label place =>
    cases place <;>
      simp [text, Label.name, LoopNumber.topName, LoopNumber.endName] at content
  | operation indent operation =>
    rw [text, String.toList_append, toList_blanks, dropWhile_replicate,
      operation.dropWhile_blank_text] at content
    cases operation <;>
      simp [Operation.text, Operation.unary, Operation.binary, target?,
        String.toList_inj] at content ⊢
    · exact content
    · exact content

/-- The row of a jump jumps. -/
theorem jumpsTo_of_target? {line : Line} {goal : Label} (jumps : line.target? = some goal) :
    ∃ target, JumpsTo line.text target := by
  cases line with
  | operation indent content =>
    cases content with
    | jump place =>
      refine ⟨place.name, indent, .inr ?_⟩
      rw [String.append_assoc]
      rfl
    | jumpLess place =>
      refine ⟨place.name, indent, .inl ?_⟩
      rw [String.append_assoc]
      rfl
    | _ => contradiction
  | _ => contradiction

/-- A character of a text stands in a line or ends one. -/
theorem mem_textOf {lines : List Line} {character : Char}
    (there : character ∈ (textOf lines).toList) :
    (∃ line ∈ lines, character ∈ line.text.toList) ∨ character = '\n' := by
  induction lines with
  | nil => contradiction
  | cons line lines ih =>
    rw [textOf_cons, String.toList_append, String.toList_append, List.mem_append,
      List.mem_append] at there
    rcases there with (there | there) | there
    · exact .inl ⟨line, List.mem_cons_self, there⟩
    · exact .inr (List.mem_singleton.mp there)
    · rcases ih there with ⟨other, inside, there⟩ | ended
      · exact .inl ⟨other, List.mem_cons_of_mem line inside, there⟩
      · exact .inr ended

/-- The jumps among some lines lead to labels among them, and no empty line stands between. -/
def JumpsClosed (lines : List Line) : Prop :=
  ∀ (index : Nat) (line : Line) (goal : Label), lines[index]? = some line →
    line.target? = some goal → ∃ place : Nat, lines[place]? = some (label goal) ∧
      ∀ between : Nat, min index place ≤ between → between ≤ max index place →
        lines[between]? ≠ some blank

namespace JumpsClosed

variable {first second lines : List Line}

/-- Lines without jumps have none that lead elsewhere. -/
theorem of_none (none : ∀ line ∈ lines, line.target? = none) : JumpsClosed lines := by
  intro index line goal found jumps
  rw [none line (List.mem_of_getElem? found)] at jumps
  contradiction

/-- Lines among which none is empty and every target is defined. -/
theorem of_defined (filled : blank ∉ lines)
    (defined : ∀ line ∈ lines, ∀ goal, line.target? = some goal → label goal ∈ lines) :
    JumpsClosed lines := by
  intro index line goal found jumps
  obtain ⟨place, there⟩ :=
    List.mem_iff_getElem?.mp (defined line (List.mem_of_getElem? found) goal jumps)
  refine ⟨place, there, ?_⟩
  intro between _ _ empty
  exact filled (List.mem_of_getElem? empty)

/-- Jumps that stay in one of two groups of lines stay there when the other one is added. -/
theorem append (left : JumpsClosed first) (right : JumpsClosed second) :
    JumpsClosed (first ++ second) := by
  intro index line goal found jumps
  by_cases early : index < first.length
  · rw [List.getElem?_append_left early] at found
    obtain ⟨place, there, apart⟩ := left index line goal found jumps
    have inside : place < first.length := (List.getElem?_eq_some_iff.mp there).1
    refine ⟨place, ?_, ?_⟩
    · rw [List.getElem?_append_left inside]
      exact there
    · intro between low high
      rw [List.getElem?_append_left (by omega)]
      exact apart between low high
  · rw [List.getElem?_append_right (by omega)] at found
    obtain ⟨place, there, apart⟩ := right (index - first.length) line goal found jumps
    refine ⟨place + first.length, ?_, ?_⟩
    · rw [List.getElem?_append_right (by omega), Nat.add_sub_cancel]
      exact there
    · intro between low high
      rw [List.getElem?_append_right (by omega)]
      exact apart (between - first.length) (by omega) (by omega)

end JumpsClosed

end Line

namespace Block

/-- What a line of a block can be: a jump to a label of the block, the definition of a label, a
fixed row or a row with a number. -/
inductive HasLine (lines : List Line) : Line → Prop
  /-- A jump whose target is defined in the block. -/
  | jump {line : Line} {goal : Label} (jumps : line.target? = some goal)
      (defined : .label goal ∈ lines) : HasLine lines line
  /-- The definition of a label. -/
  | label (place : Label) : HasLine lines (.label place)
  /-- A fixed row. -/
  | fixed {line : Line} (straight : line.target? = none) (known : line.text ∈ fixedRows) :
      HasLine lines line
  /-- A row with a number. -/
  | number {line : Line} (straight : line.target? = none) (writes : WritesNumber line.text) :
      HasLine lines line

/-- Operations whose rows are all fixed. -/
theorem hasLine_of_fixed {operations : List Operation}
    (fixed : ∀ line ∈ atMargin operations, line.target? = none ∧ line.text ∈ fixedRows)
    {line : Line} (there : line ∈ atMargin operations) (lines : List Line) :
    HasLine lines line :=
  .fixed (fixed line there).1 (fixed line there).2

/-- The code of a number has a row with the number. -/
theorem hasLine_pushNumber {value : UInt64} {line : Line}
    (there : line ∈ atMargin (pushNumber value)) (lines : List Line) : HasLine lines line := by
  have digits : toString (value.toNat : Int) = toString value.toNat := rfl
  unfold pushNumber at there
  split at there
  · obtain rfl : line = .operation Line.margin (.pushImmediate value.toNat) := by
      simpa [atMargin] using there
    refine .number rfl ⟨value, .inl ?_⟩
    apply String.toList_inj.mp
    simp [Line.text, Operation.text, Operation.unary, Operation.immediate, digits, Line.margin]
  · obtain rfl | rfl : line = .operation Line.margin (.moveWide value.toNat .rax) ∨
        line = .operation Line.margin (.push .rax) := by
      simpa [atMargin] using there
    · refine .number rfl ⟨value, .inr ?_⟩
      apply String.toList_inj.mp
      simp [Line.text, Operation.text, Operation.binary, Operation.immediate, digits, Line.margin,
        Register.text]
    · exact .fixed rfl (by decide)

/-- The code of a dump has two labels, and its two jumps lead to them. -/
theorem hasLine_dumpStack (loop : LoopNumber) :
    ∀ line ∈ dumpStack loop, HasLine (dumpStack loop) line := by
  have top : Line.label (.loopTop loop) ∈ dumpStack loop := by simp [dumpStack]
  have bottom : Line.label (.loopEnd loop) ∈ dumpStack loop := by simp [dumpStack]
  have fixed : ∀ {operations : List Operation} {line : Line}, line ∈ atMargin operations →
      (∀ line ∈ atMargin operations, line.target? = none ∧ line.text ∈ fixedRows) →
      HasLine (dumpStack loop) line := fun there known => hasLine_of_fixed known there _
  intro line there
  have split : line ∈ atMargin [.move .rbp .rbx, .subtractImmediate 8 .rbx] ∨
      line = .label (.loopTop loop) ∨ line ∈ atMargin [.compare .rsp .rbx] ∨
      line = .operation Line.margin (.jumpLess (.loopEnd loop)) ∨
      line ∈ atMargin [.load .rbx .rsi, .push .rbx] ∨ line ∈ atMargin printNumber ∨
      line ∈ atMargin [.pop .rbx, .subtractImmediate 8 .rbx] ∨
      line = .operation Line.margin (.jump (.loopTop loop)) ∨
      line = .label (.loopEnd loop) := by
    simp only [dumpStack, atMargin, List.map_cons, List.map_nil, List.mem_append, List.mem_cons,
      List.not_mem_nil, or_false, or_assoc] at there ⊢
    exact there
  rcases split with there | rfl | there | rfl | there | there | there | rfl | rfl
  · exact fixed there (by decide)
  · exact .label (.loopTop loop)
  · exact fixed there (by decide)
  · exact .jump rfl bottom
  · exact fixed there (by decide)
  · exact fixed there (by decide)
  · exact fixed there (by decide)
  · exact .jump rfl top
  · exact .label (.loopEnd loop)

/-- The lines of every block. -/
theorem hasLine_lines {instruction : Instruction} {block : Block}
    (compiled : ofInstruction? instruction = some block) {line : Line}
    (there : line ∈ block.lines) : HasLine block.lines line := by
  cases instruction with
  | push value =>
    cases compiled
    exact hasLine_pushNumber there _
  | dump loop =>
    cases compiled
    exact hasLine_dumpStack loop line there
  | unrecognized text => contradiction
  | _ =>
    cases compiled
    exact hasLine_of_fixed (by decide) there _

/-- A block defines the targets of its jumps, and none of its lines is empty. -/
theorem jumpsClosed_lines {instruction : Instruction} {block : Block}
    (compiled : ofInstruction? instruction = some block) : Line.JumpsClosed block.lines := by
  apply Line.JumpsClosed.of_defined
  · intro there
    rcases operation_or_label compiled there with ⟨content, same⟩ | ⟨place, same⟩
    · contradiction
    · contradiction
  · intro line there goal jumps
    cases hasLine_lines compiled there with
    | jump found defined =>
      rw [found] at jumps
      rw [← Option.some.inj jumps]
      exact defined
    | label place => contradiction
    | fixed straight known =>
      rw [straight] at jumps
      contradiction
    | number straight writes =>
      rw [straight] at jumps
      contradiction

end Block

namespace Program

variable {instructions : List Instruction} {line : Line}

/-- The jumps of a program stay in their blocks. -/
theorem jumpsClosed_lines (instructions : List Instruction) :
    Line.JumpsClosed (ofInstructions instructions).lines := by
  have fixed : ∀ {lines : List Line}, (∀ line ∈ lines, line.target? = none) →
      Line.JumpsClosed lines := Line.JumpsClosed.of_none
  have blocks : Line.JumpsClosed (blockLines instructions) := by
    induction instructions with
    | nil => exact fixed (by simp [blockLines])
    | cons instruction instructions ih =>
      cases compiled : Block.ofInstruction? instruction with
      | none =>
        rw [blockLines_cons_none compiled]
        exact ih
      | some block =>
        have first : Line.JumpsClosed ([.blank] ++ block.lines) :=
          (fixed (by decide)).append (Block.jumpsClosed_lines compiled)
        rw [blockLines_cons_some compiled]
        exact first.append ih
  rw [lines_ofInstructions]
  exact ((fixed (by decide)).append blocks).append (fixed (by decide))

/-- The rows of a program are the texts of its lines, and an empty one follows. -/
theorem rowsOf_text (instructions : List Instruction) :
    rowsOf (ofInstructions instructions).text =
      (ofInstructions instructions).lines.map Line.text ++ [""] := by
  rw [rowsOf, text, Line.cutAt_textOf fun line there => isReadable_lines there, List.map_append,
    List.map_map]
  congr 1
  apply List.map_congr_left
  intro line _
  exact String.ofList_toList

/-- The jumps of the rows of a program lead to rows of the same block. -/
theorem jumps_rowsOf_text (instructions : List Instruction) {index : Nat} {row target : String}
    (found : (rowsOf (ofInstructions instructions).text)[index]? = some row)
    (jumps : JumpsTo row target) :
    ∃ place : Nat, (rowsOf (ofInstructions instructions).text)[place]? = some (target ++ ":") ∧
      ∀ between : Nat, min index place ≤ between → between ≤ max index place →
        (rowsOf (ofInstructions instructions).text)[between]? ≠ some "" := by
  let lines := (ofInstructions instructions).lines
  have row_of : ∀ {place : Nat}, place < lines.length →
      (lines.map Line.text ++ [""])[place]? = lines[place]?.map Line.text := by
    intro place inside
    rw [List.getElem?_append_left (by simpa using inside), List.getElem?_map]
  rw [rowsOf_text] at found ⊢
  have inside : index < lines.length := by
    by_cases early : index < lines.length
    · exact early
    · -- The row behind the last line is empty and does not jump.
      have last : row = Line.blank.text := by
        rw [List.getElem?_append_right (by simpa using early)] at found
        exact List.mem_singleton.mp (List.mem_of_getElem? found)
      rw [last] at jumps
      obtain ⟨goal, jumps, _⟩ := Line.target?_of_jumpsTo jumps
      contradiction
  rw [row_of inside, Option.map_eq_some_iff] at found
  obtain ⟨line, there, rfl⟩ := found
  obtain ⟨goal, leads, rfl⟩ := Line.target?_of_jumpsTo jumps
  obtain ⟨place, defined, apart⟩ := jumpsClosed_lines instructions index line goal there leads
  have before : place < lines.length := (List.getElem?_eq_some_iff.mp defined).1
  refine ⟨place, ?_, ?_⟩
  · rw [row_of before, defined]
    rfl
  · intro between low high empty
    rw [row_of (by omega), Option.map_eq_some_iff] at empty
    obtain ⟨other, found, text⟩ := empty
    rw [Line.text_eq_empty text] at found
    exact apart between low high found

/-- The rows of a program that define labels are those of its labels. -/
theorem filter_definesLabel_rowsOf_text (instructions : List Instruction) :
    (rowsOf (ofInstructions instructions).text).filter definesLabel =
      (ofInstructions instructions).labels.map fun place => place.name ++ ":" := by
  have lines : ∀ lines : List Line, (lines.map Line.text).filter definesLabel =
      (lines.filterMap Line.defined?).map fun place => place.name ++ ":" := by
    intro lines
    induction lines with
    | nil => rfl
    | cons line lines ih =>
      rw [List.map_cons, List.filter_cons, line.definesLabel_text, ih]
      cases line <;> rfl
  rw [rowsOf_text, List.filter_append, lines, labels]
  exact List.append_nil _

/-- A row of a program that neither defines a label nor jumps is empty, fixed or writes a
number. -/
theorem rowsOf_text_cases {row : String}
    (there : row ∈ rowsOf (ofInstructions instructions).text) :
    definesLabel row = true ∨ (∃ target, JumpsTo row target) ∨ row = "" ∨
      row ∈ fixedRows ∨ row ∈ Block.fixedRows ∨ WritesNumber row := by
  have fixed : ∀ line ∈ opening ++ closing, line.text ∈ fixedRows := by decide
  rw [rowsOf_text, List.mem_append, List.mem_map, List.mem_singleton] at there
  rcases there with ⟨line, there, rfl⟩ | rfl
  · rcases mem_lines_cases there with there | rfl | ⟨instruction, block, compiled, there⟩
    · exact .inr (.inr (.inr (.inl (fixed line there))))
    · exact .inr (.inr (.inl rfl))
    · cases Block.hasLine_lines compiled there with
      | jump jumps defined => exact .inr (.inl (Line.jumpsTo_of_target? jumps))
      | label place =>
        left
        rw [Line.definesLabel_text]
        rfl
      | fixed straight known => exact .inr (.inr (.inr (.inr (.inl known))))
      | number straight writes => exact .inr (.inr (.inr (.inr (.inr writes))))
  · exact .inr (.inr (.inl rfl))

/-- The text of a program is written in ASCII. -/
theorem toNat_lt_of_mem_text {character : Char}
    (there : character ∈ (ofInstructions instructions).text.toList) : character.toNat < 128 := by
  have fixed : ((opening ++ closing).all fun line =>
      line.text.toList.all fun character => character.toNat < 128) = true := by decide
  simp only [List.all_eq_true, decide_eq_true_eq] at fixed
  obtain ⟨line, inside, there⟩ | rfl := Line.mem_textOf there
  · rcases mem_lines_cases inside with inside | rfl | ⟨instruction, block, compiled, inside⟩
    · exact fixed line inside character there
    · exact absurd there List.not_mem_nil
    · rcases Block.operation_or_label compiled inside with ⟨content, rfl⟩ | ⟨place, rfl⟩
      · rw [Line.text, String.toList_append, Line.toList_blanks, List.mem_append] at there
        rcases there with there | there
        · rw [List.eq_of_mem_replicate there]
          decide
        · exact (Line.inlineText_operation content character there).2.2
      · rw [Line.text, String.toList_append, List.mem_append] at there
        rcases there with there | there
        · exact (plain_of_symbol? place.symbol?_name character there).2.2.2.2
        · rw [List.mem_singleton.mp there]
          decide
  · decide

end Program

/-- The rows of the labels of loops whose numbers fit 32 bits. -/
theorem Label.map_row_ofDumps {count : Nat} (few : count < UInt32.size) :
    (ofDumps 0 count).map (fun place => place.name ++ ":") =
      (List.range count).flatMap fun index =>
        ["dots_loop_" ++ toString index ++ ":", "dots_done_" ++ toString index ++ ":"] := by
  rw [ofDumps, List.map_flatMap, List.range_eq_range']
  apply List.flatMap_congr
  intro index there
  have small : index < count := by simpa using (List.mem_range'_1.mp there).2
  have number : (UInt32.ofNat index).toNat = index := by
    rw [UInt32.toNat_ofNat']
    exact Nat.mod_eq_of_lt (Nat.lt_trans small few)
  have ending : LoopNumber.text ⟨UInt32.ofNat index⟩ = "_" ++ toString index := by
    rw [LoopNumber.text, number]
  simp only [List.map_cons, List.map_nil, name, LoopNumber.topName, LoopNumber.endName, ending]
  simp only [← String.append_assoc]
  rfl

namespace Compilation

/-- The assembly of a source with a number of dumps has their labels and no others, its jumps
stay in their blocks, and nothing else in it comes from the source but numbers. -/
theorem wellFormed_assembly {source : List UInt8} {compilation : Compilation}
    (compiled : (ofBytes source).outcome = .ok compilation)
    (few : Word.dumps (Word.allOfBytes source) < UInt32.size) :
    WellFormed compilation.assembly (Word.dumps (Word.allOfBytes source)) := by
  obtain ⟨_, rfl⟩ := (outcome_ofWords_eq_ok_iff _ compilation).mp compiled
  have labels := Program.filter_definesLabel_rowsOf_text
    (Instruction.sequence 0 (Word.allOfBytes source))
  change WellFormed (Program.ofInstructions
    (Instruction.sequence 0 (Word.allOfBytes source))).text _
  refine ⟨?_, ?_, ?_, ?_, ?_⟩
  · rw [labels, Program.labels_of_words, ← Label.map_row_ofDumps few]
    rfl
  · rw [labels]
    refine (Program.nodup_labels few).map ?_
    intro first second same
    exact Label.name_injective (String.append_left_inj ":" |>.mp same)
  · intro index row target found jumps
    exact Program.jumps_rowsOf_text _ found jumps
  · intro row there
    exact Program.rowsOf_text_cases there
  · intro character there
    exact Program.toNat_lt_of_mem_text there

/-- A source with two dumps, a comment that holds a third one, and a word without a meaning. -/
def dumpSource : List UInt8 :=
  "7 .s / .s\nfrobnicate\t.s".toUTF8.data.toList

/-- The source with two dumps is compiled to an assembly with the labels of two loops. -/
theorem wellFormed_assembly_dumpSource :
    WellFormed (ofFitting (Word.allOfBytes dumpSource)).assembly 2 := by
  have words : Word.allOfBytes dumpSource = [⟨"7", ⟨1, 1⟩⟩, ⟨".s", ⟨1, 3⟩⟩,
      ⟨"frobnicate", ⟨2, 1⟩⟩, ⟨".s", ⟨2, 12⟩⟩] := by
    rw [Word.allOfBytes_eq_scan]
    decide
  have two : Word.dumps (Word.allOfBytes dumpSource) = 2 := by
    rw [words]
    decide
  have compiled : (ofBytes dumpSource).outcome =
      .ok (ofFitting (Word.allOfBytes dumpSource)) := by
    rw [ofBytes, outcome_ofWords_eq_ok_iff, words]
    exact ⟨by decide, rfl⟩
  rw [← two]
  exact wellFormed_assembly compiled (by rw [two]; decide)

end Compilation

end ForthAsm
