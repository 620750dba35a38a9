import ForthAsm.Proofs.Lowering
import ForthAsm.Proofs.Reading
import Mathlib.Data.List.Nodup

/-!
# The labels of programs

Besides the print format and the entry point only the loops of stack dumps define labels. As
every dump has the number of dumps before it, the labels of a program that comes from words
are known in advance, and as long as the numbers fit 32 bits they differ from each other. So
the text of such a program is accepted by an assembler.

Main statements: `Program.labels_ofInstructions`, `Instruction.labels_sequence`,
`Program.nodup_labels` and `Program.ofText?_text`.
-/

namespace ForthAsm

/-- Different numbers have different digits. -/
theorem Literal.toDigits_injective {first second : Nat}
    (same : Nat.toDigits 10 first = Nat.toDigits 10 second) : first = second := by
  have values := congrArg (fun digits => placeValue (String.ofList digits)) same
  simpa only [placeValue_toDigits] using values

/-- Different labels have different names. -/
theorem Label.name_injective {first second : Label} (same : first.name = second.name) :
    first = second := by
  have number : ∀ {left right : LoopNumber}, Nat.toDigits 10 left.index.toNat =
      Nat.toDigits 10 right.index.toNat → left = right := by
    intro left right digits
    have index : left.index = right.index :=
      UInt32.toNat_inj.mp (Literal.toDigits_injective digits)
    cases left
    cases right
    exact congrArg LoopNumber.mk index
  cases first <;> cases second <;>
    simp [name, LoopNumber.topName, LoopNumber.endName, LoopNumber.text,
      ← String.toList_inj] at same ⊢
  · exact number same
  · exact number same

/-- The label that a line defines. -/
def Line.defined? : Line → Option Label
  | label place => some place
  | _ => none

/-- The labels that an instruction brings along. -/
def Instruction.labels : Instruction → List Label
  | dump loop => [.loopTop loop, .loopEnd loop]
  | _ => []

/-- The labels of the loops of some dumps behind others. -/
def Label.ofDumps (before count : Nat) : List Label :=
  (List.range' before count).flatMap fun index =>
    [.loopTop ⟨UInt32.ofNat index⟩, .loopEnd ⟨UInt32.ofNat index⟩]

/-- The labels that a program defines, in order. -/
def Program.labels (program : Program) : List Label :=
  program.lines.filterMap Line.defined?

/-- The symbols of some lines are the names of their labels. -/
theorem Line.symbols_map_statement (lines : List Line) :
    Statement.symbols (lines.map statement) = (lines.filterMap defined?).map Label.name := by
  rw [Statement.symbols, List.filterMap_map, List.map_filterMap]
  congr 1
  funext line
  cases line with
  | operation indent content => cases content <;> rfl
  | _ => rfl

namespace Block

/-- Operations define no labels. -/
@[simp]
theorem filterMap_defined?_atMargin (operations : List Operation) :
    (atMargin operations).filterMap Line.defined? = [] := by
  simp [atMargin, Line.defined?]

/-- A block defines the labels that its instruction brings along. -/
theorem filterMap_defined?_lines {instruction : Instruction} {block : Block}
    (compiled : ofInstruction? instruction = some block) :
    block.lines.filterMap Line.defined? = instruction.labels := by
  cases instruction with
  | dump loop =>
    cases compiled
    simp [dumpStack, Instruction.labels, Line.defined?]
  | unrecognized text => contradiction
  | _ =>
    cases compiled
    exact filterMap_defined?_atMargin _

/-- A line of a block holds an operation at the margin or defines a label. -/
theorem operation_or_label {instruction : Instruction} {block : Block}
    (compiled : ofInstruction? instruction = some block) {line : Line}
    (there : line ∈ block.lines) :
    (∃ content, line = .operation Line.margin content) ∨ ∃ place, line = .label place := by
  have margin : ∀ operations, line ∈ atMargin operations →
      ∃ content, line = .operation Line.margin content := by
    intro operations there
    obtain ⟨operation, _, rfl⟩ := List.mem_map.mp there
    exact ⟨operation, rfl⟩
  cases instruction with
  | dump loop =>
    cases compiled
    simp only [dumpStack, List.mem_append, List.mem_singleton] at there
    rcases there with ((((there | rfl) | there) | there) | there) | rfl
    all_goals first
      | exact .inl (margin _ there)
      | exact .inr ⟨_, rfl⟩
  | unrecognized text => contradiction
  | _ =>
    cases compiled
    exact .inl (margin _ there)

/-- The lines of a block can be read. -/
theorem isReadable_lines {instruction : Instruction} {block : Block}
    (compiled : ofInstruction? instruction = some block) {line : Line}
    (there : line ∈ block.lines) : line.isReadable = true := by
  rcases operation_or_label compiled there with ⟨content, rfl⟩ | ⟨place, rfl⟩
  · rfl
  · rfl

end Block

namespace Program

/-- The blocks of a program that comes from instructions. -/
theorem mem_blocks_ofInstructions {instructions : List Instruction} {block : Block} :
    block ∈ (ofInstructions instructions).blocks.toList ↔
      ∃ instruction ∈ instructions, Block.ofInstruction? instruction = some block := by
  simp [ofInstructions]

/-- The lines of the blocks of some instructions, each block behind an empty line. -/
def blockLines (instructions : List Instruction) : List Line :=
  (instructions.filterMap Block.ofInstruction?).flatMap fun block => .blank :: block.lines

/-- An instruction without a block has no lines. -/
theorem blockLines_cons_none {instruction : Instruction}
    (none : Block.ofInstruction? instruction = none) (instructions : List Instruction) :
    blockLines (instruction :: instructions) = blockLines instructions := by
  rw [blockLines, List.filterMap_cons_none none, blockLines]

/-- The lines of the first block come first. -/
theorem blockLines_cons_some {instruction : Instruction} {block : Block}
    (compiled : Block.ofInstruction? instruction = some block)
    (instructions : List Instruction) :
    blockLines (instruction :: instructions) =
      .blank :: block.lines ++ blockLines instructions := by
  rw [blockLines, List.filterMap_cons_some compiled, List.flatMap_cons, blockLines]

/-- The lines of the blocks stand between the fixed lines. -/
theorem lines_ofInstructions (instructions : List Instruction) :
    (ofInstructions instructions).lines =
      opening ++ blockLines instructions ++ .blank :: closing := by
  simp only [lines, ofInstructions, blockLines]

/-- A line of a program is fixed, empty or a line of a block. -/
theorem mem_lines_cases {instructions : List Instruction} {line : Line}
    (there : line ∈ (ofInstructions instructions).lines) :
    line ∈ opening ++ closing ∨ line = .blank ∨
      ∃ instruction block, Block.ofInstruction? instruction = some block ∧
        line ∈ block.lines := by
  simp only [lines, List.mem_append, List.mem_flatMap, List.mem_cons] at there
  rcases there with (there | ⟨block, found, rfl | there⟩) | rfl | there
  · exact .inl (List.mem_append_left _ there)
  · exact .inr (.inl rfl)
  · obtain ⟨instruction, _, compiled⟩ := mem_blocks_ofInstructions.mp found
    exact .inr (.inr ⟨instruction, block, compiled, there⟩)
  · exact .inr (.inl rfl)
  · exact .inl (List.mem_append_right _ there)

/-- All lines of a program that comes from instructions can be read. -/
theorem isReadable_lines {instructions : List Instruction} {line : Line}
    (there : line ∈ (ofInstructions instructions).lines) : line.isReadable = true := by
  have fixed : ∀ line ∈ opening ++ closing, line.isReadable = true := by decide
  rcases mem_lines_cases there with there | rfl | ⟨instruction, block, compiled, there⟩
  · exact fixed line there
  · rfl
  · exact Block.isReadable_lines compiled there

/-- A program defines the two fixed labels and those that its instructions bring along. -/
theorem labels_ofInstructions (instructions : List Instruction) :
    (ofInstructions instructions).labels =
      .format :: .entry :: instructions.flatMap Instruction.labels := by
  have blocks : (blockLines instructions).filterMap Line.defined? =
      instructions.flatMap Instruction.labels := by
    induction instructions with
    | nil => rfl
    | cons instruction instructions ih =>
      rw [List.flatMap_cons, ← ih]
      cases compiled : Block.ofInstruction? instruction with
      | none =>
        have none : instruction.labels = [] := by
          cases instruction <;> first | contradiction | rfl
        rw [blockLines_cons_none compiled, none, List.nil_append]
      | some block =>
        rw [blockLines_cons_some compiled, List.filterMap_append,
          ← Block.filterMap_defined?_lines compiled]
        rfl
  have first : opening.filterMap Line.defined? = [.format, .entry] := rfl
  have last : (.blank :: closing).filterMap Line.defined? = [] := rfl
  rw [labels, lines_ofInstructions, List.filterMap_append, List.filterMap_append, first, last,
    blocks, List.append_nil]
  rfl

end Program

/-- The labels of words are those of as many loops as there are dumps. -/
theorem Instruction.labels_sequence (before : Nat) (words : List Word) :
    (sequence before words).flatMap labels = Label.ofDumps before (Word.dumps words) := by
  induction words generalizing before with
  | nil => rfl
  | cons word words ih =>
    rw [sequence, List.flatMap_cons, ih, Word.dumps_cons]
    by_cases dump : word.text = dumpName
    · have isDump : word.isDump = true := beq_iff_eq.mpr dump
      have first : ofText before word.text = .dump ⟨UInt32.ofNat before⟩ := by
        simp [ofText, dump, not_isDigits_dumpName]
      rw [first, isDump]
      simp [Label.ofDumps, labels, List.range'_succ]
    · have isDump : word.isDump = false := beq_eq_false_iff_ne.mpr dump
      have first : (ofText before word.text).labels = [] := by
        unfold ofText
        split
        · rfl
        · unfold ofName?
          split <;> rfl
      rw [first, isDump]
      rfl

/-- Loops with different numbers below the limit have different numbers of 32 bits. -/
theorem LoopNumber.ofNat_injective {first second : Nat} (small : first < UInt32.size)
    (less : second < UInt32.size)
    (same : (⟨UInt32.ofNat first⟩ : LoopNumber) = ⟨UInt32.ofNat second⟩) : first = second := by
  have limit : UInt32.size = 4294967296 := rfl
  have values := congrArg (fun loop => loop.index.toNat) same
  simp only [UInt32.toNat_ofNat'] at values
  omega

/-- The labels of loops differ as long as their numbers fit 32 bits. -/
theorem Label.nodup_ofDumps {before count : Nat} (fits : before + count ≤ UInt32.size) :
    (ofDumps before count).Nodup := by
  rw [ofDumps, List.nodup_flatMap]
  refine ⟨fun index _ => by simp, ?_⟩
  refine List.pairwise_iff_forall_sublist.mpr ?_
  intro first second pair
  have bounds : first < UInt32.size ∧ second < UInt32.size ∧ first ≠ second := by
    have members := pair.subset
    have one := List.mem_range'_1.mp (members List.mem_cons_self)
    have other := List.mem_range'_1.mp (members (List.mem_cons_of_mem _ List.mem_cons_self))
    have numbers : (List.range' before count).Nodup := List.nodup_range'
    have distinct : first ≠ second := by simpa using numbers.sublist pair
    omega
  have apart : (⟨UInt32.ofNat first⟩ : LoopNumber) ≠ ⟨UInt32.ofNat second⟩ :=
    fun same => bounds.2.2 (LoopNumber.ofNat_injective bounds.1 bounds.2.1 same)
  simp [Function.onFun, List.Disjoint, apart]

namespace Program

/-- The labels of a program that comes from words. -/
theorem labels_of_words (words : List Word) :
    (ofInstructions (Instruction.sequence 0 words)).labels =
      .format :: .entry :: Label.ofDumps 0 (Word.dumps words) := by
  rw [labels_ofInstructions, Instruction.labels_sequence]

/-- The labels of a program differ if the numbers of its loops fit 32 bits. -/
theorem nodup_labels {words : List Word} (few : Word.dumps words < UInt32.size) :
    (ofInstructions (Instruction.sequence 0 words)).labels.Nodup := by
  have loops : (Label.ofDumps 0 (Word.dumps words)).Nodup := Label.nodup_ofDumps (by omega)
  rw [labels_of_words, List.nodup_cons, List.nodup_cons]
  refine ⟨?_, ?_, loops⟩
  · simp [Label.ofDumps]
  · simp [Label.ofDumps]

/-- The text of a program that comes from words is accepted, and every line is read as what
it stands for; behind the last line feed there is an empty line. -/
theorem ofText?_text {words : List Word} (few : Word.dumps words < UInt32.size) :
    ∃ listing, Listing.ofText? (ofInstructions (Instruction.sequence 0 words)).text =
      some listing ∧ listing.statements =
        (ofInstructions (Instruction.sequence 0 words)).lines.map Line.statement ++ [.blank] := by
  let program := ofInstructions (Instruction.sequence 0 words)
  have rows := Line.mapM_ofLine?_rows fun line there =>
    isReadable_lines (show line ∈ program.lines from there)
  have symbols : Statement.symbols (program.lines.map Line.statement ++ [.blank]) =
      program.labels.map Label.name := by
    rw [Statement.symbols, List.filterMap_append, ← Statement.symbols,
      Line.symbols_map_statement]
    exact List.append_nil _
  have distinct : (Statement.symbols (program.lines.map Line.statement ++ [.blank])).Nodup := by
    rw [symbols]
    exact (nodup_labels few).map fun _ _ same => Label.name_injective same
  refine ⟨⟨_, distinct⟩, ?_, rfl⟩
  rw [Listing.ofText?, text, rows]
  simp [distinct, program]

end Program

end ForthAsm
