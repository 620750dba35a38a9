import ForthAsm.Compilation
import ForthAsm.Proofs.Numerals

/-!
# The instructions of a list of words

A list of words stands for a sequence of instructions. The number of a dump is the number of
dumps before it, so the sequence is a function of the words alone, and no supply of loop
numbers has to be followed along.

Main statements: `Compilation.outcome_ofWords_eq_ok_iff`, a list of words is compiled exactly
if each of its literals fits a machine word, and then the program holds the blocks of the
sequence and the diagnostics are the words without a meaning; and
`Compilation.outcome_ofWords`, otherwise the first literal that does not fit is the failure.
-/

namespace ForthAsm

namespace Word

/-- Whether a word asks for a stack dump. -/
def isDump (word : Word) : Bool :=
  word.text == Instruction.dumpName

/-- The number of words that ask for a stack dump. -/
def dumps (words : List Word) : Nat :=
  words.countP isDump

/-- A word is acceptable unless it is a literal whose value is too large for a machine word. -/
def Fits (word : Word) : Prop :=
  Literal.IsDigits word.text → Literal.placeValue word.text < 2 ^ 64

/-- Whether a word is acceptable can be decided by its digits. -/
instance (word : Word) : Decidable word.Fits :=
  inferInstanceAs (Decidable (_ → _))

/-- A literal whose value takes more than 64 bits. -/
def IsTooLarge (word : Word) : Prop :=
  Literal.IsDigits word.text ∧ 2 ^ 64 ≤ Literal.placeValue word.text

/-- A word fits unless it is a literal that is too large. -/
theorem not_isTooLarge_iff {word : Word} : ¬word.IsTooLarge ↔ word.Fits := by
  rw [IsTooLarge, not_and, Nat.not_le]
  rfl

/-- The first word that does not fit, if there is one. -/
def firstLarge? (words : List Word) : Option Word :=
  words.find? fun word => !decide word.Fits

/-- Whether a word is neither a literal nor the name of an operation. -/
def isUnrecognized (word : Word) : Bool :=
  !decide (Literal.IsDigits word.text) && !word.isDump && (Instruction.ofName? word.text).isNone

/-- The first word asks for a dump or it does not. -/
@[simp]
theorem dumps_cons (word : Word) (words : List Word) :
    dumps (word :: words) = dumps words + if word.isDump then 1 else 0 := by
  simp [dumps, List.countP_cons]

/-- No word is too large exactly if all of them fit. -/
theorem firstLarge?_eq_none_iff {words : List Word} :
    firstLarge? words = none ↔ ∀ word ∈ words, word.Fits := by
  simp [firstLarge?]

/-- The first literal that is too large, with what stands before it and behind it. -/
theorem firstLarge?_eq_some_iff {words : List Word} {word : Word} :
    firstLarge? words = some word ↔
      ∃ before after, words = before ++ word :: after ∧ (∀ other ∈ before, ¬other.IsTooLarge) ∧
        word.IsTooLarge := by
  simp only [firstLarge?, List.find?_eq_some_iff_append, Bool.not_eq_eq_eq_not, Bool.not_true,
    decide_eq_false_iff_not, Bool.not_false, decide_eq_true_eq, not_isTooLarge_iff]
  rw [← not_isTooLarge_iff, not_not]
  constructor
  · rintro ⟨large, before, after, whole, small⟩
    exact ⟨before, after, whole, small, large⟩
  · rintro ⟨before, after, whole, small, large⟩
    exact ⟨large, before, after, whole, small⟩

end Word

namespace Instruction

/-- The instruction of a text behind a number of dumps. -/
def ofText (before : Nat) (text : String) : Instruction :=
  if Literal.IsDigits text then .push (UInt64.ofNat (Literal.placeValue text))
  else if text = dumpName then .dump ⟨UInt32.ofNat before⟩
  else (ofName? text).getD (.unrecognized text)

/-- The instructions of words behind a number of dumps. -/
def sequence (before : Nat) : List Word → List Instruction
  | [] => []
  | word :: words =>
    ofText before word.text :: sequence (before + if word.isDump then 1 else 0) words

/-- The word for a dump is no literal. -/
theorem not_isDigits_dumpName : ¬Literal.IsDigits dumpName := by
  decide

/-- A word that fits becomes its instruction, and a dump uses up one number. -/
theorem ofWord_of_fits {word : Word} (fits : word.Fits) (before : Nat) :
    ofWord word ⟨UInt32.ofNat before⟩ =
      (.ok (ofText before word.text),
        ⟨UInt32.ofNat (before + if word.isDump then 1 else 0)⟩) := by
  unfold ofWord ofText
  by_cases digits : Literal.IsDigits word.text
  · have other : word.isDump = false := by
      rw [Word.isDump, beq_eq_false_iff_ne]
      rintro same
      exact not_isDigits_dumpName (same ▸ digits)
    have value : Literal.value? word.text =
        some (UInt64.ofNat (Literal.placeValue word.text)) := by
      rw [Literal.value?_eq_some_iff, UInt64.toNat_ofNat']
      exact (Nat.mod_eq_of_lt (fits digits)).symm
    simp [Literal.isNumeral_iff.mpr digits, digits, value, other]
  · have numeral : Literal.isNumeral word.text ≠ true := mt Literal.isNumeral_iff.mp digits
    by_cases dump : word.text = dumpName
    · rw [dump] at numeral digits
      simp [dump, numeral, digits, Word.isDump, LoopSupply.draw, UInt32.ofNat_add]
    · simp [numeral, digits, dump, Word.isDump]

/-- A word that does not fit is a failure. -/
theorem ofWord_of_not_fits {word : Word} (large : ¬word.Fits) (supply : LoopSupply) :
    ofWord word supply = (.error (.literalOutOfRange word), supply) := by
  obtain ⟨digits, bound⟩ := Classical.not_imp.mp large
  have absent : Literal.value? word.text = none :=
    Literal.value?_eq_none_iff.mpr (Nat.le_of_not_lt bound)
  simp [ofWord, Literal.isNumeral_iff.mpr digits, absent]

/-- A text has no code exactly if it is neither a literal nor the name of an operation. -/
theorem ofInstruction?_ofText (before : Nat) (word : Word) :
    (Block.ofInstruction? (ofText before word.text)).isNone = word.isUnrecognized := by
  unfold ofText Word.isUnrecognized Word.isDump
  by_cases digits : Literal.IsDigits word.text
  · simp [digits, Block.ofInstruction?]
  · by_cases dump : word.text = dumpName
    · simp [dump, not_isDigits_dumpName, Block.ofInstruction?]
    · simp only [digits, dump, decide_false, ↓reduceIte, Bool.not_false, Bool.true_and,
        beq_eq_false_iff_ne.mpr dump]
      unfold ofName?
      split <;> rfl

end Instruction

/-- The program that holds the blocks of some instructions. -/
def Program.ofInstructions (instructions : List Instruction) : Program :=
  ⟨(instructions.filterMap Block.ofInstruction?).toArray⟩

namespace Draft

/-- The draft after words that all fit, behind a number of dumps. -/
def behind (draft : Draft) (before : Nat) (words : List Word) : Draft where
  loops := ⟨UInt32.ofNat (before + Word.dumps words)⟩
  program := ⟨draft.program.blocks ++
    (Program.ofInstructions (Instruction.sequence before words)).blocks⟩
  diagnostics := draft.diagnostics ++
    ((words.filter Word.isUnrecognized).map Diagnostic.unrecognized).toArray

/-- A word that fits is taken: its block is appended, or it is reported. -/
theorem take_of_fits {draft : Draft} {before : Nat} (drawn : draft.loops = ⟨UInt32.ofNat before⟩)
    {word : Word} (fits : word.Fits) :
    draft.take word =
      (.ok (.taken word (Instruction.ofText before word.text)), draft.behind before [word]) := by
  have without := Instruction.ofInstruction?_ofText before word
  simp only [take, drawn, Instruction.ofWord_of_fits fits, append, behind, Instruction.sequence,
    Program.ofInstructions, Word.dumps]
  cases code : Block.ofInstruction? (Instruction.ofText before word.text) with
  | none =>
    rw [code, Option.isNone_none] at without
    simp [code, ← without]
  | some block =>
    rw [code, Option.isNone_some] at without
    simp [code, ← without, Program.push]

/-- Words after words lead as far as all of them. -/
theorem behind_cons (draft : Draft) (before : Nat) (word : Word) (words : List Word) :
    (draft.behind before [word]).behind (before + if word.isDump then 1 else 0) words =
      draft.behind before (word :: words) := by
  have instructions : Instruction.sequence before (word :: words) =
      Instruction.sequence before [word] ++
        Instruction.sequence (before + if word.isDump then 1 else 0) words := rfl
  have unrecognized : (word :: words).filter Word.isUnrecognized =
      [word].filter Word.isUnrecognized ++ words.filter Word.isUnrecognized :=
    List.filter_append [word] words
  have count : before + (if word.isDump then 1 else 0) + Word.dumps words =
      before + Word.dumps (word :: words) := by
    rw [Word.dumps_cons]
    omega
  rw [behind, behind, behind, count, instructions, unrecognized]
  simp [Program.ofInstructions]

/-- Words that all fit are all taken. -/
theorem outcome_takeAll_of_fits {draft : Draft} {before : Nat}
    (drawn : draft.loops = ⟨UInt32.ofNat before⟩) (log : Array Record) {words : List Word}
    (fit : ∀ word ∈ words, word.Fits) :
    (draft.takeAll log words).outcome = .ok (draft.behind before words) := by
  induction words generalizing draft before log with
  | nil =>
    simp [takeAll, behind, Instruction.sequence, Program.ofInstructions, Word.dumps, ← drawn]
  | cons word words ih =>
    have first : word.Fits := fit word List.mem_cons_self
    have others : ∀ other ∈ words, other.Fits :=
      fun other there => fit other (List.mem_cons_of_mem word there)
    have later : (draft.behind before [word]).loops =
        ⟨UInt32.ofNat (before + if word.isDump then 1 else 0)⟩ := by
      simp [behind, Word.dumps]
    rw [takeAll, take_of_fits drawn first]
    simp only
    rw [ih later _ others, behind_cons]

/-- The first word that does not fit is the failure. -/
theorem outcome_takeAll_of_large {draft : Draft} {log : Array Record} {words : List Word}
    {large : Word} (found : Word.firstLarge? words = some large) :
    (draft.takeAll log words).outcome = .error (.literalOutOfRange large) := by
  induction words generalizing draft log with
  | nil => simp [Word.firstLarge?] at found
  | cons word words ih =>
    by_cases fits : word.Fits
    · have later : Word.firstLarge? words = some large := by
        simpa [Word.firstLarge?, List.find?_cons, fits] using found
      rw [takeAll]
      cases taken : draft.take word with
      | mk outcome changed =>
        cases outcome with
        | ok record => exact ih later
        | error failure =>
          have drawn : draft.loops = ⟨UInt32.ofNat draft.loops.drawn.toNat⟩ := by simp
          rw [take_of_fits drawn fits] at taken
          simp at taken
    · have same : word = large := by
        simpa [Word.firstLarge?, List.find?_cons, fits] using found
      rw [takeAll, take, Instruction.ofWord_of_not_fits fits, same]

/-- If all words are taken, they all fit. -/
theorem fits_of_outcome_takeAll {draft later : Draft} {log : Array Record} {words : List Word}
    (taken : (draft.takeAll log words).outcome = .ok later) : ∀ word ∈ words, word.Fits := by
  induction words generalizing draft log with
  | nil => simp
  | cons word words ih =>
    by_cases fits : word.Fits
    · intro other there
      rcases List.mem_cons.mp there with rfl | there
      · exact fits
      · rw [takeAll] at taken
        split at taken
        · simp at taken
        · exact ih taken other there
    · rw [takeAll, take, Instruction.ofWord_of_not_fits fits] at taken
      simp at taken

end Draft

namespace Compilation

/-- What a list of words that all fit is compiled to. -/
def ofFitting (words : List Word) : Compilation where
  assembly := (Program.ofInstructions (Instruction.sequence 0 words)).text
  diagnostics := (words.filter Word.isUnrecognized).map Diagnostic.unrecognized

/-- What a fresh draft makes of words that all fit. -/
theorem result_behind_fresh (words : List Word) :
    (Draft.fresh.behind 0 words).result = ofFitting words := by
  simp [Draft.result, Draft.behind, Draft.fresh, Program.empty, ofFitting]

/-- A list of words is compiled exactly if its literals fit, and then to its blocks. -/
theorem outcome_ofWords_eq_ok_iff (words : List Word) (compilation : Compilation) :
    (ofWords words).outcome = .ok compilation ↔
      (∀ word ∈ words, word.Fits) ∧ compilation = ofFitting words := by
  have drawn : Draft.fresh.loops = ⟨UInt32.ofNat 0⟩ := rfl
  have result := result_behind_fresh words
  unfold ofWords
  constructor
  · intro compiled
    split at compiled
    · simp at compiled
    · rename_i draft log taken
      have outcome : (Draft.fresh.takeAll #[] words).outcome = .ok draft := by rw [taken]
      have fit := Draft.fits_of_outcome_takeAll outcome
      rw [Draft.outcome_takeAll_of_fits drawn #[] fit] at outcome
      simp only [Except.ok.injEq] at outcome compiled
      exact ⟨fit, by rw [← compiled, ← outcome, result]⟩
  · rintro ⟨fit, rfl⟩
    have outcome := Draft.outcome_takeAll_of_fits drawn #[] fit
    split
    · rename_i failed
      rw [failed] at outcome
      simp at outcome
    · rename_i draft log taken
      rw [taken] at outcome
      simp only [Except.ok.injEq] at outcome ⊢
      rw [outcome, result]

/-- The outcome of a list of words: the first word that does not fit is the failure, and
without one the words are compiled to their blocks. -/
theorem outcome_ofWords (words : List Word) :
    (ofWords words).outcome =
      match Word.firstLarge? words with
      | some word => .error (.literalOutOfRange word)
      | none => .ok (ofFitting words) := by
  cases found : Word.firstLarge? words with
  | none =>
    exact (outcome_ofWords_eq_ok_iff words _).mpr ⟨Word.firstLarge?_eq_none_iff.mp found, rfl⟩
  | some word =>
    have failed : (Draft.fresh.takeAll #[] words).outcome = .error (.literalOutOfRange word) :=
      Draft.outcome_takeAll_of_large found
    unfold ofWords
    split
    · rename_i taken
      rw [taken] at failed
      simpa using failed
    · rename_i taken
      rw [taken] at failed
      simp at failed

/-- The first literal that is too large is the failure. -/
theorem outcome_ofWords_of_large {words before after : List Word} {word : Word}
    (whole : words = before ++ word :: after) (small : ∀ other ∈ before, ¬other.IsTooLarge)
    (large : word.IsTooLarge) : (ofWords words).outcome = .error (.literalOutOfRange word) := by
  rw [outcome_ofWords, Word.firstLarge?_eq_some_iff.mpr ⟨before, after, whole, small, large⟩]

/-- Words without a literal that is too large are compiled to their blocks. -/
theorem outcome_ofWords_of_small {words : List Word} (small : ∀ word ∈ words, ¬word.IsTooLarge) :
    (ofWords words).outcome = .ok (ofFitting words) := by
  simp only [Word.not_isTooLarge_iff] at small
  exact (outcome_ofWords_eq_ok_iff words _).mpr ⟨small, rfl⟩

end Compilation

end ForthAsm
