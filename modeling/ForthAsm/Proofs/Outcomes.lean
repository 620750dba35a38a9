import ForthAsm.Proofs.Lines
import ForthAsm.Proofs.Meaning

/-!
# What becomes of a source

The outcome of a compilation as a function of the words of its source, without following the
compilation word by word. A literal that is too large decides alone, the first one if there are
several. Without one the words are divided in two: those that are neither literals nor names of
operations are reported, and each of the others has a block, at the same place among the blocks
as the word has among these words. A dump is numbered by the dumps before it.

Main statement: `Compilation.outcome_ofBytes`.
-/

namespace ForthAsm

namespace Word

/-- Whether a word is a literal or the name of an operation. -/
def isRecognized (word : Word) : Bool :=
  decide (Literal.IsDigits word.text) || Sense.keywords.contains word.text

/-- A word has a meaning exactly if it is a literal or the name of an operation. -/
theorem isSome_ofText?_text (word : Word) :
    (Sense.ofText? word.text).isSome = word.isRecognized := by
  unfold Sense.ofText? isRecognized
  by_cases digits : Literal.IsDigits word.text
  · simp [digits]
  · by_cases known : word.text ∈ Sense.keywords
    · simp [digits, known]
    · simp [digits, known]

/-- The words that are reported are those that are not recognized. -/
theorem isUnrecognized_eq (word : Word) : word.isUnrecognized = !word.isRecognized := by
  rw [← Instruction.ofInstruction?_ofText 0, ← isSome_ofText?_text]
  cases meant : Sense.ofText? word.text with
  | none => simp [Sense.ofInstruction?_of_ofText? meant]
  | some sense =>
    obtain ⟨same, -⟩ := Sense.instruction_of_ofText? meant 0
    unfold Sense.ofText? at meant
    split at meant
    · cases meant
      rw [same]
      rfl
    · split at meant
      · rename_i known
        obtain ⟨block, compiled, -⟩ := Sense.ofBlock?_of_mem_keywords known 0
        simp [compiled]
      · contradiction

end Word

/-- What a text asks for behind a number of dumps. -/
inductive Instruction.IsFor (before : Nat) : String → Instruction → Prop
  /-- A literal asks for its value. -/
  | number {text : String} {value : UInt64} (digits : Literal.IsDigits text)
      (same : value.toNat = Literal.placeValue text) : IsFor before text (.push value)
  | duplicate : IsFor before "dup" .duplicate
  | multiply : IsFor before "*" .multiply
  | print : IsFor before "." .print
  | add : IsFor before "+" .add
  | swap : IsFor before "swap" .swap
  | nip : IsFor before "nip" .nip
  | tuck : IsFor before "tuck" .tuck
  /-- A dump has the number of dumps before it. -/
  | dump {loop : LoopNumber} (counted : loop.index.toNat = before) :
      IsFor before ".s" (.dump loop)

/-- The instruction of a recognized word is what the word asks for. -/
theorem Instruction.isFor_ofText {word : Word} (fits : word.Fits)
    (recognized : word.isRecognized = true) {before : Nat} (few : before < UInt32.size) :
    IsFor before word.text (ofText before word.text) := by
  unfold Word.isRecognized at recognized
  by_cases digits : Literal.IsDigits word.text
  · rw [ofText, if_pos digits]
    refine .number digits ?_
    rw [UInt64.toNat_ofNat']
    exact Nat.mod_eq_of_lt (fits digits)
  · have known : word.text ∈ Sense.keywords := by simpa [digits] using recognized
    have counted : (UInt32.ofNat before).toNat = before := by
      rw [UInt32.toNat_ofNat']
      exact Nat.mod_eq_of_lt few
    simp only [Sense.keywords, List.mem_cons, List.not_mem_nil, or_false] at known
    rcases known with same | same | same | same | same | same | same | same
    all_goals rw [same]
    · exact .duplicate
    · exact .multiply
    · exact .print
    · exact .add
    · exact .swap
    · exact .nip
    · exact .tuck
    · exact .dump counted

namespace Block

/-- Blocks belong to words behind a number of dumps: there are as many, and each is the code of
what the word at its place asks for. -/
structure AreOf (before : Nat) (words : List Word) (blocks : List Block) : Prop where
  /-- There are as many blocks as words. -/
  length : blocks.length = words.length
  /-- A block is the code of its word. -/
  each : ∀ (index : Nat) (word : Word) (block : Block), words[index]? = some word →
    blocks[index]? = some block → ∃ instruction,
      Instruction.IsFor (before + Word.dumps (words.take index)) word.text instruction ∧
        ofInstruction? instruction = some block

/-- A word and its block come before others. -/
theorem AreOf.cons {before : Nat} {word : Word} {words : List Word} {block : Block}
    {blocks : List Block} {instruction : Instruction}
    (asked : Instruction.IsFor before word.text instruction)
    (compiled : ofInstruction? instruction = some block)
    (others : AreOf (before + if word.isDump then 1 else 0) words blocks) :
    AreOf before (word :: words) (block :: blocks) := by
  refine ⟨by rw [List.length_cons, List.length_cons, others.length], ?_⟩
  intro index found code there compiledThere
  cases index with
  | zero =>
    rw [List.getElem?_cons_zero, Option.some.injEq] at there compiledThere
    rw [← there, ← compiledThere]
    exact ⟨instruction, asked, compiled⟩
  | succ index =>
    have count : before + Word.dumps ((word :: words).take (index + 1)) =
        (before + if word.isDump then 1 else 0) + Word.dumps (words.take index) := by
      rw [List.take_succ_cons, Word.dumps_cons]
      omega
    rw [count]
    exact others.each index found code there compiledThere

/-- The blocks of a compilation belong to the recognized words. -/
theorem areOf_sequence {words : List Word} (fit : ∀ word ∈ words, word.Fits) {before : Nat}
    (few : before + Word.dumps words < UInt32.size) :
    AreOf before (words.filter Word.isRecognized)
      ((Instruction.sequence before words).filterMap ofInstruction?) := by
  induction words generalizing before with
  | nil => exact ⟨rfl, fun index word block there _ => by simp at there⟩
  | cons word words ih =>
    have first : word.Fits := fit word List.mem_cons_self
    have fewer : before + (if word.isDump then 1 else 0) + Word.dumps words < UInt32.size := by
      rw [Word.dumps_cons] at few
      omega
    have others := ih (fun other there => fit other (List.mem_cons_of_mem word there)) fewer
    have coded := Instruction.ofInstruction?_ofText before word
    rw [Word.isUnrecognized_eq] at coded
    rw [Instruction.sequence, List.filterMap_cons]
    cases recognized : word.isRecognized with
    | false =>
      have undumped : word.isDump = false := by
        cases dump : word.isDump with
        | false => rfl
        | true =>
          have name : word.text = Instruction.dumpName := beq_iff_eq.mp dump
          rw [Word.isRecognized, name] at recognized
          contradiction
      rw [recognized, Bool.not_false, Option.isNone_iff_eq_none] at coded
      rw [coded, List.filter_cons_of_neg (by simp [recognized])]
      rw [undumped] at others ⊢
      exact others
    | true =>
      rw [recognized, Bool.not_true, Option.isNone_eq_false_iff, Option.isSome_iff_exists] at coded
      obtain ⟨block, compiled⟩ := coded
      rw [compiled, List.filter_cons_of_pos recognized]
      exact .cons (Instruction.isFor_ofText first recognized (by omega)) compiled others

end Block

namespace Compilation

/-- What a source is compiled to. It fails exactly if one of its words is a literal that is too
large, and the first such word is the failure, whatever else is in the source. Otherwise the
words that are not recognized are reported in their order, and the assembly is the opening, the
blocks of the recognized words in their order, each behind an empty line, and the ending. -/
theorem outcome_ofBytes {source : List UInt8}
    (few : Word.dumps (Word.allOfBytes source) < UInt32.size) :
    ((∃ failure, (ofBytes source).outcome = .error failure) ↔
      ∃ word ∈ Word.allOfBytes source, word.IsTooLarge) ∧
    (∀ before word after, Word.allOfBytes source = before ++ word :: after →
      (∀ other ∈ before, ¬other.IsTooLarge) → word.IsTooLarge →
        (ofBytes source).outcome = .error (.literalOutOfRange word)) ∧
    ((∀ word ∈ Word.allOfBytes source, ¬word.IsTooLarge) → ∃ compilation blocks,
      (ofBytes source).outcome = .ok compilation ∧
        compilation.diagnostics = ((Word.allOfBytes source).filter
          fun word => !word.isRecognized).map Diagnostic.unrecognized ∧
        Block.AreOf 0 ((Word.allOfBytes source).filter Word.isRecognized) blocks ∧
        compilation.assembly = Line.textOf Program.opening ++ Block.textOf blocks ++ "\n" ++
          Line.textOf Program.closing) := by
  refine ⟨?_, ?_, ?_⟩
  · rw [ofBytes, outcome_ofWords]
    cases found : Word.firstLarge? (Word.allOfBytes source) with
    | none =>
      have fit := Word.firstLarge?_eq_none_iff.mp found
      simp only [reduceCtorEq, exists_false, false_iff, not_exists, not_and]
      intro word there
      exact Word.not_isTooLarge_iff.mpr (fit word there)
    | some word =>
      obtain ⟨before, after, whole, -, large⟩ := Word.firstLarge?_eq_some_iff.mp found
      simp only [Except.error.injEq, exists_eq', true_iff]
      exact ⟨word, by simp [whole], large⟩
  · intro before word after whole small large
    exact outcome_ofWords_of_large whole small large
  · intro small
    have made := outcome_ofWords_of_small small
    have fit : ∀ word ∈ Word.allOfBytes source, word.Fits :=
      fun word there => Word.not_isTooLarge_iff.mp (small word there)
    have reported : Word.isUnrecognized = fun word => !word.isRecognized :=
      funext Word.isUnrecognized_eq
    refine ⟨_, _, made, ?_, Block.areOf_sequence fit (by omega), Program.text_eq _⟩
    rw [ofFitting, reported]

/-- Two words that are not recognized around a literal that is too large, and another one. -/
def overflowSource : List UInt8 :=
  "-1 18446744073709551616\n.s foo 99999999999999999999".toUTF8.data.toList

/-- The first of the two literals is the failure, and a source without one is compiled: the word
that is not recognized is reported, and the dump behind it has the first loop. -/
theorem outcome_ofBytes_overflow :
    (ofBytes overflowSource).outcome =
        .error (.literalOutOfRange ⟨"18446744073709551616", ⟨1, 4⟩⟩) ∧
      ∃ compilation blocks, (ofBytes lowerSource).outcome = .ok compilation ∧
        compilation.diagnostics = [.unrecognized ⟨"frobnicate", ⟨1, 1⟩⟩] ∧
        Block.AreOf 0 [⟨".s", ⟨1, 12⟩⟩] blocks ∧
        compilation.assembly = Line.textOf Program.opening ++ Block.textOf blocks ++ "\n" ++
          Line.textOf Program.closing := by
  have words : Word.allOfBytes overflowSource = [⟨"-1", ⟨1, 1⟩⟩] ++
      ⟨"18446744073709551616", ⟨1, 4⟩⟩ ::
        [⟨".s", ⟨2, 1⟩⟩, ⟨"foo", ⟨2, 4⟩⟩, ⟨"99999999999999999999", ⟨2, 8⟩⟩] := by
    rw [Word.allOfBytes_eq_scan]
    decide
  have lower : Word.allOfBytes lowerSource = [⟨"frobnicate", ⟨1, 1⟩⟩, ⟨".s", ⟨1, 12⟩⟩] := by
    rw [Word.allOfBytes_eq_scan]
    decide
  have few : Word.dumps (Word.allOfBytes overflowSource) < UInt32.size := by
    rw [words]
    decide
  have fewLower : Word.dumps (Word.allOfBytes lowerSource) < UInt32.size := by
    rw [lower]
    decide
  constructor
  · refine (outcome_ofBytes few).2.1 _ _ _ words ?_ ?_
    · intro other there
      rw [List.mem_singleton.mp there, Word.not_isTooLarge_iff]
      decide
    · exact ⟨by decide, by decide⟩
  · have small : ∀ word ∈ Word.allOfBytes lowerSource, ¬word.IsTooLarge := by
      simp only [lower, Word.not_isTooLarge_iff]
      decide
    obtain ⟨compilation, blocks, compiled, reported, belong, text⟩ :=
      (outcome_ofBytes fewLower).2.2 small
    rw [lower] at reported belong
    exact ⟨compilation, blocks, compiled, reported, belong, text⟩

end Compilation

end ForthAsm
