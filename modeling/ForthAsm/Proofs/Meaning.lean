import ForthAsm.Proofs.Labels

/-!
# The meaning of words and of their assembly

The meaning of some words is what is left of them without positions, without words that are
neither literals nor names of operations, and without the spelling of literals. It can be read
off the assembly that the words are compiled to: the empty lines divide the text into blocks,
and every block shows the word that it comes from.

Main statements: `Sense.decompile_assembly`, the meaning is read off the assembly, and
`Compilation.assembly_eq_iff`, so two assemblies are equal exactly if the meanings are.
-/

namespace ForthAsm

/-- What a word with a meaning stands for. -/
inductive Sense where
  /-- A number, however it is spelled. -/
  | number (value : Nat)
  /-- An operation by its name. -/
  | keyword (name : String)
  deriving DecidableEq, Repr

namespace Sense

/-- The names of the operations. -/
def keywords : List String :=
  ["dup", "*", ".", "+", "swap", "nip", "tuck", ".s"]

/-- What a text stands for, if it has a meaning. -/
def ofText? (text : String) : Option Sense :=
  if Literal.IsDigits text then some (.number (Literal.placeValue text))
  else if text ∈ keywords then some (.keyword text)
  else none

/-- The meaning of some words, in order. -/
def ofWords (words : List Word) : List Sense :=
  (words.map Word.text).filterMap ofText?

/-- What the code of a block shows about the word that it comes from: a number is an operand of
the first instruction, and the other blocks differ in their lengths and instructions. -/
def ofBlock? : List Statement → Option Sense
  | .instruction .push [.immediate value] :: _ => some (.number value.toNat)
  | .instruction .movabs [.immediate value, _] :: _ => some (.number value.toNat)
  | .instruction .mov _ :: _ => some (.keyword ".s")
  | [_, .instruction .push _, _] => some (.keyword "dup")
  | [_, .instruction .add _, _] => some (.keyword "nip")
  | [_, _, .instruction .imul _, _] => some (.keyword "*")
  | [_, _, .instruction .add _, _] => some (.keyword "+")
  | [_, _, .instruction .push _, _] => some (.keyword "swap")
  | [_, _, _, _, _] => some (.keyword "tuck")
  | [_, _, _, _, _, _, _] => some (.keyword ".")
  | _ => none

/-- The meaning that an assembly text shows: without the three parts before the blocks and the
two parts behind them, every part between empty lines is a block. -/
def decompile (text : String) : List Sense :=
  let statements := ((cutAt '\n' text.toList).mapM Statement.ofLine?).getD []
  ((statements.splitOn .blank).drop 3).dropLast.dropLast.filterMap ofBlock?

/-- The code of a number shows the number. -/
theorem ofBlock?_pushNumber (value : UInt64) :
    ofBlock? ((Block.atMargin (Block.pushNumber value)).map Line.statement) =
      some (.number value.toNat) := by
  unfold Block.pushNumber
  split
  · rfl
  · rfl

/-- The name of an operation has a block, and the block shows the name. -/
theorem ofBlock?_of_mem_keywords {name : String} (known : name ∈ keywords) (before : Nat) :
    ∃ block, Block.ofInstruction? (Instruction.ofText before name) = some block ∧
      ofBlock? (block.lines.map Line.statement) = some (.keyword name) := by
  simp only [keywords, List.mem_cons, List.not_mem_nil, or_false] at known
  rcases known with rfl | rfl | rfl | rfl | rfl | rfl | rfl | rfl
  all_goals exact ⟨_, rfl, rfl⟩

/-- A text with a meaning has a block, and the block shows the meaning. -/
theorem ofBlock?_of_ofText? {word : Word} (fits : word.Fits) {sense : Sense}
    (meant : ofText? word.text = some sense) (before : Nat) :
    ∃ block, Block.ofInstruction? (Instruction.ofText before word.text) = some block ∧
      ofBlock? (block.lines.map Line.statement) = some sense := by
  unfold ofText? at meant
  split at meant
  · rename_i digits
    cases meant
    have small := fits digits
    have value : (UInt64.ofNat (Literal.placeValue word.text)).toNat =
        Literal.placeValue word.text := by
      rw [UInt64.toNat_ofNat']
      exact Nat.mod_eq_of_lt small
    rw [Instruction.ofText, if_pos digits]
    have shown := ofBlock?_pushNumber (UInt64.ofNat (Literal.placeValue word.text))
    rw [value] at shown
    exact ⟨_, rfl, shown⟩
  · split at meant
    · rename_i known
      cases meant
      exact ofBlock?_of_mem_keywords known before
    · contradiction

/-- A text without a meaning has no block. -/
theorem ofInstruction?_of_ofText? {text : String} (meaningless : ofText? text = none)
    (before : Nat) : Block.ofInstruction? (Instruction.ofText before text) = none := by
  unfold ofText? at meaningless
  split at meaningless
  · contradiction
  · rename_i other
    split at meaningless
    · contradiction
    · rename_i unknown
      have noDump : text ≠ Instruction.dumpName := by
        rintro rfl
        exact unknown (by decide)
      have unnamed : Instruction.ofName? text = none := by
        unfold Instruction.ofName?
        split
        all_goals first
          | rfl
          | exact absurd (by decide) unknown
      rw [Instruction.ofText, if_neg other, if_neg noDump, unnamed]
      rfl

/-- What the blocks of some instructions say. -/
def blockStatements (instructions : List Instruction) : List (List Statement) :=
  (instructions.filterMap Block.ofInstruction?).map fun block => block.lines.map Line.statement

/-- The blocks of words show the meaning of the words. -/
theorem filterMap_ofBlock?_sequence {words : List Word} (fit : ∀ word ∈ words, word.Fits)
    (before : Nat) :
    (blockStatements (Instruction.sequence before words)).filterMap ofBlock? =
      ofWords words := by
  induction words generalizing before with
  | nil => rfl
  | cons word words ih =>
    have first : word.Fits := fit word List.mem_cons_self
    have others := ih fun other there => fit other (List.mem_cons_of_mem word there)
    rw [Instruction.sequence, blockStatements, ofWords, List.map_cons]
    cases meant : ofText? word.text with
    | none =>
      rw [List.filterMap_cons_none (ofInstruction?_of_ofText? meant before), ← blockStatements,
        others, List.filterMap_cons_none meant, ofWords]
    | some sense =>
      obtain ⟨block, compiled, shown⟩ := ofBlock?_of_ofText? first meant before
      rw [List.filterMap_cons_some compiled, List.map_cons, List.filterMap_cons_some shown,
        ← blockStatements, others, List.filterMap_cons_some meant, ofWords]

/-- Parts with a separator between them are the first part and the others, each behind the
separator. -/
theorem intercalate_cons {separator : Statement} (first : List Statement)
    (others : List (List Statement)) :
    [separator].intercalate (first :: others) =
      first ++ others.flatMap (separator :: ·) := by
  induction others generalizing first with
  | nil => simp
  | cons second others ih =>
    rw [List.intercalate_cons_cons, ih, List.flatMap_cons]
    simp

/-- No statement of a block is empty. -/
theorem blank_not_mem_statements {instruction : Instruction} {block : Block}
    (compiled : Block.ofInstruction? instruction = some block) :
    Statement.blank ∉ block.lines.map Line.statement := by
  intro there
  obtain ⟨line, there, blank⟩ := List.mem_map.mp there
  rcases Block.operation_or_label compiled there with ⟨content, rfl⟩ | ⟨place, rfl⟩
  · cases content <;> contradiction
  · contradiction

/-- The parts between the empty lines of a program: three before the blocks, the blocks, and
two behind them, the last one with nothing in it. -/
def parts (instructions : List Instruction) : List (List Statement) :=
  let opening := Program.opening.map Line.statement
  opening.take 1 :: (opening.drop 2).take 2 :: opening.drop 5 ::
    (blockStatements instructions ++ [Program.closing.map Line.statement, []])

/-- No part has an empty line in it. -/
theorem blank_not_mem_parts {instructions : List Instruction} {part : List Statement}
    (there : part ∈ parts instructions) : Statement.blank ∉ part := by
  simp only [parts, List.mem_cons, List.mem_append, List.not_mem_nil, or_false] at there
  rcases there with rfl | rfl | rfl | there | rfl | rfl
  · decide
  · decide
  · decide
  · simp only [blockStatements, List.mem_map, List.mem_filterMap] at there
    obtain ⟨block, ⟨instruction, _, compiled⟩, rfl⟩ := there
    exact blank_not_mem_statements compiled
  · decide
  · decide

/-- A program consists of its parts with empty lines between them. -/
theorem intercalate_parts (instructions : List Instruction) :
    [Statement.blank].intercalate (parts instructions) =
      (Program.ofInstructions instructions).lines.map Line.statement ++ [.blank] := by
  have blocks : (blockStatements instructions).flatMap (Statement.blank :: ·) =
      (Program.blockLines instructions).map Line.statement := by
    rw [blockStatements, Program.blockLines, List.flatMap_map, List.map_flatMap]
    rfl
  rw [parts, intercalate_cons, List.flatMap_cons, List.flatMap_cons, List.flatMap_append, blocks,
    Program.lines_ofInstructions]
  simp [Program.opening, Line.statement]

/-- Cutting a program at its empty lines finds its parts. -/
theorem splitOn_statements (instructions : List Instruction) :
    ((Program.ofInstructions instructions).lines.map Line.statement ++
      [Statement.blank]).splitOn Statement.blank = parts instructions := by
  rw [← intercalate_parts]
  exact List.splitOn_intercalate _ (fun part there => blank_not_mem_parts there)
    (List.cons_ne_nil _ _)

/-- The text of a program shows what its blocks show. -/
theorem decompile_text (instructions : List Instruction) :
    decompile (Program.ofInstructions instructions).text =
      (blockStatements instructions).filterMap ofBlock? := by
  have rows := Line.mapM_ofLine?_rows fun line there =>
    Program.isReadable_lines (show line ∈ (Program.ofInstructions instructions).lines from there)
  rw [decompile, Program.text, rows]
  simp only [Option.getD_some, splitOn_statements, parts, List.drop_succ_cons, List.drop_zero]
  rw [show [Program.closing.map Line.statement, []] =
    [Program.closing.map Line.statement] ++ [[]] from rfl, ← List.append_assoc,
    List.dropLast_concat, List.dropLast_concat]

/-- The meaning of words is read off the assembly that they are compiled to. -/
theorem decompile_assembly {words : List Word} {compilation : Compilation}
    (compiled : (Compilation.ofWords words).outcome = .ok compilation) :
    decompile compilation.assembly = ofWords words := by
  obtain ⟨fit, rfl⟩ := (Compilation.outcome_ofWords_eq_ok_iff words compilation).mp compiled
  rw [Compilation.ofFitting, decompile_text]
  exact filterMap_ofBlock?_sequence fit 0

/-- The instruction of a meaning behind a number of dumps. -/
def instruction (before : Nat) : Sense → Instruction
  | number value => .push (UInt64.ofNat value)
  | keyword name => Instruction.ofText before name

/-- The blocks of meanings behind a number of dumps. -/
def blocks (before : Nat) : List Sense → List Block
  | [] => []
  | sense :: senses =>
    (Block.ofInstruction? (sense.instruction before)).toList ++
      blocks (before + if sense = .keyword Instruction.dumpName then 1 else 0) senses

/-- A text with a meaning has the instruction of its meaning, and is a dump if that is one. -/
theorem instruction_of_ofText? {word : Word} {sense : Sense}
    (meant : ofText? word.text = some sense) (before : Nat) :
    Instruction.ofText before word.text = sense.instruction before ∧
      (word.isDump = true ↔ sense = .keyword Instruction.dumpName) := by
  unfold ofText? at meant
  split at meant
  · rename_i digits
    cases meant
    refine ⟨by rw [Instruction.ofText, if_pos digits, instruction], ?_⟩
    have other : word.text ≠ Instruction.dumpName := by
      intro same
      exact Instruction.not_isDigits_dumpName (same ▸ digits)
    simp [Word.isDump, other]
  · split at meant
    · cases meant
      exact ⟨rfl, by simp [Word.isDump]⟩
    · contradiction

/-- A text without a meaning is no dump. -/
theorem isDump_of_ofText? {word : Word} (meaningless : ofText? word.text = none) :
    word.isDump = false := by
  rw [Word.isDump, beq_eq_false_iff_ne]
  intro same
  rw [same] at meaningless
  contradiction

/-- The blocks of words are those of their meaning. -/
theorem filterMap_ofInstruction?_sequence (before : Nat) (words : List Word) :
    (Instruction.sequence before words).filterMap Block.ofInstruction? =
      blocks before (ofWords words) := by
  induction words generalizing before with
  | nil => rfl
  | cons word words ih =>
    rw [Instruction.sequence, ofWords, List.map_cons]
    cases meant : ofText? word.text with
    | none =>
      rw [List.filterMap_cons_none (ofInstruction?_of_ofText? meant before), ih,
        List.filterMap_cons_none meant, ofWords, isDump_of_ofText? meant]
      rfl
    | some sense =>
      obtain ⟨same, dump⟩ := instruction_of_ofText? meant before
      rw [List.filterMap_cons_some meant, blocks, ← ofWords, ← same, ← ih, List.filterMap_cons]
      simp only [← dump]
      cases Block.ofInstruction? (Instruction.ofText before word.text) <;> rfl

end Sense

namespace Compilation

/-- Two lists of words are compiled to the same assembly exactly if they have the same meaning:
positions, words without a meaning and leading zeros are not in it, and all else is. -/
theorem assembly_eq_iff {first second : List Word} {one other : Compilation}
    (compiledFirst : (ofWords first).outcome = .ok one)
    (compiledSecond : (ofWords second).outcome = .ok other) :
    one.assembly = other.assembly ↔ Sense.ofWords first = Sense.ofWords second := by
  constructor
  · intro same
    rw [← Sense.decompile_assembly compiledFirst, ← Sense.decompile_assembly compiledSecond,
      same]
  · intro same
    obtain ⟨_, rfl⟩ := (outcome_ofWords_eq_ok_iff first one).mp compiledFirst
    obtain ⟨_, rfl⟩ := (outcome_ofWords_eq_ok_iff second other).mp compiledSecond
    simp only [ofFitting, Program.ofInstructions, Sense.filterMap_ofInstruction?_sequence, same]

/-- A number with leading zeros, a word without a meaning and other positions make no difference,
and another number does. -/
theorem assembly_eq_iff_spelling : ∃ padded plain one two,
    (ofWords [⟨"007", ⟨1, 1⟩⟩, ⟨"frobnicate", ⟨1, 5⟩⟩, ⟨".s", ⟨2, 1⟩⟩]).outcome = .ok padded ∧
    (ofWords [⟨"7", ⟨3, 9⟩⟩, ⟨".s", ⟨4, 1⟩⟩]).outcome = .ok plain ∧
    (ofWords [⟨"1", ⟨1, 1⟩⟩]).outcome = .ok one ∧ (ofWords [⟨"2", ⟨1, 1⟩⟩]).outcome = .ok two ∧
    padded.assembly = plain.assembly ∧ one.assembly ≠ two.assembly := by
  have made : ∀ words : List Word, (∀ word ∈ words, word.Fits) →
      (ofWords words).outcome = .ok (ofFitting words) :=
    fun words fit => (outcome_ofWords_eq_ok_iff words _).mpr ⟨fit, rfl⟩
  have padded := made [⟨"007", ⟨1, 1⟩⟩, ⟨"frobnicate", ⟨1, 5⟩⟩, ⟨".s", ⟨2, 1⟩⟩] (by decide)
  have plain := made [⟨"7", ⟨3, 9⟩⟩, ⟨".s", ⟨4, 1⟩⟩] (by decide)
  have one := made [⟨"1", ⟨1, 1⟩⟩] (by decide)
  have two := made [⟨"2", ⟨1, 1⟩⟩] (by decide)
  refine ⟨_, _, _, _, padded, plain, one, two, ?_, ?_⟩
  · exact (assembly_eq_iff padded plain).mpr (by decide)
  · rw [Ne, assembly_eq_iff one two]
    decide

end Compilation

end ForthAsm
