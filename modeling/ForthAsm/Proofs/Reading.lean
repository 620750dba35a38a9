import ForthAsm.Assembly.Program
import ForthAsm.Proofs.Statement
import Std.Data.String.ToInt

/-!
# Reading the text of a program

What an assembler makes of the lines that programs are written in. Each line is read on its
own: a text without blanks and commas is one operand, and the operands of an operation are
found again between its blanks and commas.

Main statement: `Line.mapM_ofLine?_rows`, the lines of a text are read as the statements that
the lines stand for.
-/

namespace ForthAsm

/-! ## Numbers and symbols -/

/-- A digit is no minus sign, no blank and no punctuation. -/
theorem ne_of_isDigit {digit other : Char} (isDigit : digit.isDigit = true)
    (different : other.isDigit = false) : digit ≠ other := by
  rintro rfl
  rw [isDigit] at different
  contradiction

/-- The value of the decimal digits of a number is the number. -/
theorem Literal.placeValue_toDigits (number : Nat) :
    Literal.placeValue (String.ofList (Nat.toDigits 10 number)) = number := by
  have same : Literal.decimal (Nat.toDigits 10 number) =
      Nat.ofDigitChars 10 (Nat.toDigits 10 number) 0 := by
    rw [Literal.decimal, Nat.ofDigitChars_eq_foldl]
    congr 1
    funext total digit
    rw [Literal.shift, Literal.digitValue, Nat.mul_comm]
  rw [← Literal.decimal_eq_placeValue, String.toList_ofList, same, Nat.ofDigitChars_ten_toDigits]

/-- The decimal digits of a number are digits. -/
theorem isDigit_toDigits {number : Nat} {digit : Char} (there : digit ∈ Nat.toDigits 10 number) :
    digit.isDigit = true :=
  Nat.isDigit_of_mem_toDigits (by decide) (by decide) there

/-- The digits of a number are read as the number. -/
theorem natural?_toDigits (number : Nat) : natural? (Nat.toDigits 10 number) = some number := by
  have digits : Literal.IsDigits (String.ofList (Nat.toDigits 10 number)) := by
    rw [← Literal.isNumeral_iff, Literal.isNumeral, String.toList_ofList]
    simpa using fun digit there => isDigit_toDigits there
  rw [natural?, if_pos digits, Literal.placeValue_toDigits]

/-- The text of an integer is read as the integer. -/
theorem integer?_toString (value : Int) : integer? (toString value).toList = some value := by
  cases value with
  | ofNat size =>
    have text : (toString (Int.ofNat size)).toList = Nat.toDigits 10 size := by
      simp [Int.toString_eq_repr, Int.repr]
    rw [text]
    unfold integer?
    split
    · rename_i digits digitsOf
      have minus : '-' ∈ Nat.toDigits 10 size := by simp [digitsOf]
      exact absurd rfl (ne_of_isDigit (isDigit_toDigits minus) (by decide))
    · simp [natural?_toDigits]
  | negSucc size =>
    have text : (toString (Int.negSucc size)).toList = '-' :: Nat.toDigits 10 (size + 1) := by
      simp [Int.toString_eq_repr, Int.repr]
    rw [text, integer?, natural?_toDigits]
    rfl

/-- A character of ASCII that ends neither a label nor a line. -/
def Inline (character : Char) : Prop :=
  character ≠ ':' ∧ character ≠ '\n' ∧ character.toNat < 128

instance (character : Char) : Decidable (Inline character) :=
  inferInstanceAs (Decidable (_ ∧ _))

/-- A text in one piece: nothing in it divides operands or ends a label or a line. -/
def Plain (text : List Char) : Prop :=
  ∀ character ∈ text, character ≠ ' ' ∧ character ≠ ',' ∧ Inline character

instance (text : List Char) : Decidable (Plain text) :=
  List.decidableBAll _ text

/-- A text of ASCII characters that ends neither a label nor a line. -/
def InlineText (text : List Char) : Prop :=
  ∀ character ∈ text, Inline character

instance (text : List Char) : Decidable (InlineText text) :=
  List.decidableBAll _ text

/-- A plain text ends neither a label nor a line. -/
theorem Plain.inline {text : List Char} (plain : Plain text) : InlineText text :=
  fun character there => (plain character there).2.2

/-- Two texts that end nothing make one that ends nothing. -/
theorem InlineText.append {first second : List Char} (left : InlineText first)
    (right : InlineText second) : InlineText (first ++ second) := by
  intro character there
  rcases List.mem_append.mp there with there | there
  · exact left character there
  · exact right character there

/-- Two plain texts make one. -/
theorem Plain.append {first second : List Char} (left : Plain first) (right : Plain second) :
    Plain (first ++ second) := by
  intro character there
  rcases List.mem_append.mp there with there | there
  · exact left character there
  · exact right character there

/-- Digits are plain. -/
theorem plain_toDigits (number : Nat) : Plain (Nat.toDigits 10 number) := by
  intro digit there
  have isDigit := isDigit_toDigits there
  have small : digit.toNat < 128 := by
    simp only [Char.isDigit, Bool.and_eq_true, decide_eq_true_eq, ge_iff_le,
      UInt32.le_iff_toNat_le] at isDigit
    exact Nat.lt_of_le_of_lt isDigit.2 (by decide)
  exact ⟨ne_of_isDigit isDigit (by decide), ne_of_isDigit isDigit (by decide),
    ne_of_isDigit isDigit (by decide), ne_of_isDigit isDigit (by decide), small⟩

/-- The text of an integer is plain. -/
theorem plain_toString (value : Int) : Plain (toString value).toList := by
  cases value with
  | ofNat size =>
    have text : (toString (Int.ofNat size)).toList = Nat.toDigits 10 size := by
      simp [Int.toString_eq_repr, Int.repr]
    rw [text]
    exact plain_toDigits size
  | negSucc size =>
    have text : (toString (Int.negSucc size)).toList = ['-'] ++ Nat.toDigits 10 (size + 1) := by
      simp [Int.toString_eq_repr, Int.repr]
    rw [text]
    exact Plain.append (by decide) (plain_toDigits (size + 1))

/-- A character that can be part of a symbol differs from one that cannot. -/
theorem ne_of_isSymbolCharacter {character other : Char}
    (part : isSymbolCharacter character = true) (different : isSymbolCharacter other = false) :
    character ≠ other := by
  rintro rfl
  rw [part] at different
  contradiction

/-- Symbols are made of ASCII characters. -/
theorem toNat_lt_of_isSymbolCharacter {character : Char}
    (part : isSymbolCharacter character = true) : character.toNat < 128 := by
  have below : ∀ last : Char, last.toNat < 128 → character.val ≤ last.val →
      character.toNat < 128 := by
    intro last small bound
    exact Nat.lt_of_le_of_lt (UInt32.le_iff_toNat_le.mp bound) small
  simp only [isSymbolCharacter, Char.isAlphanum, Bool.or_eq_true, beq_iff_eq] at part
  rcases part with ((part | digit) | rfl) | rfl
  · rcases Bool.or_eq_true_iff.mp part with upper | lower
    · exact below 'Z' (by decide) (of_decide_eq_true upper).2
    · exact below 'z' (by decide) (of_decide_eq_true (Bool.and_eq_true_iff.mp lower).2)
  · exact below '9' (by decide) (of_decide_eq_true (Bool.and_eq_true_iff.mp digit).2)
  · decide
  · decide

/-- A symbol is made of symbol characters, and the first one is no digit. -/
theorem symbol?_eq_some_iff {text : List Char} {name : String} :
    symbol? text = some name ↔
      (∃ first others, text = first :: others ∧ first.isDigit = false) ∧
        (∀ character ∈ text, isSymbolCharacter character = true) ∧ String.ofList text = name := by
  cases text with
  | nil => simp [symbol?]
  | cons first others =>
    simp only [symbol?, List.cons.injEq, Option.ite_none_right_eq_some, Bool.and_eq_true,
      Bool.not_eq_true', List.all_eq_true, Option.some.injEq, and_assoc]
    constructor
    · rintro ⟨start, all, spelled⟩
      exact ⟨⟨first, others, rfl, rfl, start⟩, all, spelled⟩
    · rintro ⟨⟨_, _, rfl, rfl, start⟩, all, spelled⟩
      exact ⟨start, all, spelled⟩

/-- A symbol is plain. -/
theorem plain_of_symbol? {text : List Char} {name : String} (read : symbol? text = some name) :
    Plain text := by
  intro character there
  have part := (symbol?_eq_some_iff.mp read).2.1 character there
  exact ⟨ne_of_isSymbolCharacter part (by decide), ne_of_isSymbolCharacter part (by decide),
    ne_of_isSymbolCharacter part (by decide), ne_of_isSymbolCharacter part (by decide),
    toNat_lt_of_isSymbolCharacter part⟩

/-- Digits behind a symbol make a symbol. -/
theorem symbol?_append_toDigits {text : List Char} {name : String} (read : symbol? text = some name)
    (number : Nat) :
    symbol? (text ++ Nat.toDigits 10 number) =
      some (String.ofList (text ++ Nat.toDigits 10 number)) := by
  obtain ⟨⟨first, others, start, letter⟩, symbols, _⟩ := symbol?_eq_some_iff.mp read
  refine symbol?_eq_some_iff.mpr ⟨⟨first, others ++ Nat.toDigits 10 number, ?_, letter⟩, ?_, rfl⟩
  · rw [start, List.cons_append]
  · intro character there
    rcases List.mem_append.mp there with there | there
    · exact symbols character there
    · simp [isSymbolCharacter, Char.isAlphanum, isDigit_toDigits there]

/-- The name of a label is a symbol. -/
theorem Label.symbol?_name (label : Label) : symbol? label.name.toList = some label.name := by
  have numbered : ∀ (start : String) (loop : LoopNumber),
      symbol? (start ++ "_").toList = some (start ++ "_") →
        symbol? (start ++ loop.text).toList = some (start ++ loop.text) := by
    intro start loop read
    have text : (start ++ loop.text).toList =
        (start ++ "_").toList ++ Nat.toDigits 10 loop.index.toNat := by
      simp [LoopNumber.text]
    rw [text, symbol?_append_toDigits read, ← text, String.ofList_toList]
  cases label with
  | format => decide
  | entry => decide
  | loopTop loop => exact numbered "dots_loop" loop (by decide)
  | loopEnd loop => exact numbered "dots_done" loop (by decide)

/-- The name of a routine is a symbol. -/
theorem Routine.symbol?_name (routine : Routine) :
    symbol? routine.name.toList = some routine.name := by
  cases routine <;> decide

/-! ## Cutting texts -/

/-- A text without the separator is not cut. -/
theorem cutAt_of_not_mem {separator : Char} {text : List Char} (absent : separator ∉ text) :
    cutAt separator text = [text] := by
  induction text with
  | nil => rfl
  | cons character text ih =>
    rw [List.mem_cons, not_or] at absent
    rw [cutAt, if_neg (Ne.symm absent.1), ih absent.2]

/-- A text is cut at the first separator. -/
theorem cutAt_append {separator : Char} {first : List Char} (absent : separator ∉ first)
    (later : List Char) :
    cutAt separator (first ++ separator :: later) = first :: cutAt separator later := by
  induction first with
  | nil => simp [cutAt]
  | cons character first ih =>
    rw [List.mem_cons, not_or] at absent
    rw [List.cons_append, cutAt, if_neg (Ne.symm absent.1), ih absent.2]

/-- No blanks stand before a plain text. -/
theorem Plain.dropWhile_blank {text : List Char} (plain : Plain text) :
    text.dropWhile (· == ' ') = text := by
  cases text with
  | nil => rfl
  | cons character text =>
    have visible := (plain character List.mem_cons_self).1
    simp [visible]

/-! ## Operands -/

namespace Operand

/-- A register is read as itself. -/
theorem ofText?_register (register : Register) :
    ofText? register.text.toList = some (.register register) := by
  cases register <;> decide

/-- The lower half of a register is read as itself. -/
theorem ofText?_lowRegister (register : Register) :
    ofText? register.lowText.toList = some (.lowRegister register) := by
  cases register <;> decide

/-- A register in brackets is read as the memory it points to. -/
theorem ofText?_memory (pointer : Register) :
    ofText? ("(" ++ pointer.text ++ ")").toList = some (.memory pointer) := by
  cases pointer <;> decide

/-- A value is read as itself. -/
theorem ofText?_immediate (value : Int) :
    ofText? (Operation.immediate value).toList = some (.immediate value) := by
  have text : (Operation.immediate value).toList = '$' :: (toString value).toList := by
    simp [Operation.immediate]
  rw [text, ofText?, integer?_toString]
  rfl

/-- A symbol, alone or before a bracket, is read up to its end. -/
theorem ofText?_of_symbol? {text : List Char} {name : String} (read : symbol? text = some name)
    {place : List Char} (apart : place.dropWhile (· != '(') = place)
    (bare : place.takeWhile (· != '(') = []) : ofText? (text ++ place) = ofPlace? text place := by
  obtain ⟨⟨first, others, start, _⟩, symbols, _⟩ := symbol?_eq_some_iff.mp read
  have letter : isSymbolCharacter first = true := symbols first (by simp [start])
  have inside : ∀ character ∈ text, (character != '(') = true := by
    intro character there
    simpa using ne_of_isSymbolCharacter (symbols character there) (by decide)
  have dollar : first ≠ '$' := ne_of_isSymbolCharacter letter (by decide)
  have percent : first ≠ '%' := ne_of_isSymbolCharacter letter (by decide)
  have whole : (text ++ place).takeWhile (· != '(') = text := by
    rw [List.takeWhile_append_of_pos inside, bare, List.append_nil]
  have others : (text ++ place).dropWhile (· != '(') = place := by
    rw [List.dropWhile_append_of_pos inside, apart]
  unfold ofText?
  split
  · simp_all
  · simp_all
  · rw [whole, others]

/-- A symbol is read as the place where it stands. -/
theorem ofText?_symbol {name : String} (read : symbol? name.toList = some name) :
    ofText? name.toList = some (.symbol name) := by
  have whole : ofText? (name.toList ++ []) = ofPlace? name.toList [] :=
    ofText?_of_symbol? read rfl rfl
  rw [List.append_nil] at whole
  rw [whole, ofPlace?, read]
  rfl

/-- A symbol before the instruction pointer is read as the memory where it stands. -/
theorem ofText?_relative {name : String} (read : symbol? name.toList = some name) :
    ofText? (name ++ "(%rip)").toList = some (.relative name) := by
  rw [String.toList_append, ofText?_of_symbol? read (by decide) (by decide)]
  change (symbol? name.toList).map Operand.relative = _
  rw [read]
  rfl

end Operand

/-- A register is plain. -/
theorem Register.plain_text (register : Register) : Plain register.text.toList := by
  cases register <;> decide

/-- The lower half of a register is plain. -/
theorem Register.plain_lowText (register : Register) : Plain register.lowText.toList := by
  cases register <;> decide

/-- A value is plain. -/
theorem Operation.plain_immediate (value : Int) : Plain (immediate value).toList := by
  rw [immediate, String.toList_append]
  exact Plain.append (by decide) (plain_toString value)

/-! ## Statements -/

/-- The name of an instruction is plain and does not start with a dot. -/
theorem Mnemonic.plain_of_ofName? {name : String} {mnemonic : Mnemonic}
    (known : ofName? name = some mnemonic) :
    Plain name.toList ∧ ∃ first others, name.toList = first :: others ∧ first ≠ '.' := by
  unfold ofName? at known
  split at known
  all_goals first
    | exact ⟨by decide, _, _, rfl, by decide⟩
    | contradiction

namespace Statement

/-- Behind a blank the operands are divided by commas. -/
theorem operands?_blank (text : List Char) :
    operands? (' ' :: text) = (cutAt ',' (' ' :: text)).mapM fun operand =>
      Operand.ofText? (operand.dropWhile (· == ' ')) := rfl

/-- A blank and a plain text hold no comma. -/
theorem comma_not_mem {text : List Char} (plain : Plain text) : ',' ∉ ' ' :: text := by
  rw [List.mem_cons, not_or]
  exact ⟨by decide, fun there => (plain _ there).2.1 rfl⟩

/-- One operand behind a blank. -/
theorem operands?_one {text : List Char} (plain : Plain text) {operand : Operand}
    (read : Operand.ofText? text = some operand) : operands? (' ' :: text) = some [operand] := by
  rw [operands?_blank, cutAt_of_not_mem (comma_not_mem plain)]
  simp [plain.dropWhile_blank, read]

/-- Two operands, each behind a blank, with a comma between them. -/
theorem operands?_two {source target : List Char} (plainSource : Plain source)
    (plainTarget : Plain target) {first second : Operand}
    (readSource : Operand.ofText? source = some first)
    (readTarget : Operand.ofText? target = some second) :
    operands? (' ' :: source ++ ',' :: ' ' :: target) = some [first, second] := by
  rw [List.cons_append, operands?_blank, ← List.cons_append,
    cutAt_append (comma_not_mem plainSource), cutAt_of_not_mem (comma_not_mem plainTarget)]
  simp [plainSource.dropWhile_blank, plainTarget.dropWhile_blank, readSource, readTarget]

/-- A mnemonic and the operands behind it make an instruction. -/
theorem ofContent?_of_mnemonic {name : String} {mnemonic : Mnemonic}
    (known : Mnemonic.ofName? name = some mnemonic) {text : List Char}
    (apart : text.dropWhile (· != ' ') = text) (bare : text.takeWhile (· != ' ') = [])
    (noColon : ':' ∉ text) {operands : List Operand} (read : operands? text = some operands) :
    ofContent? (name.toList ++ text) = some (.instruction mnemonic operands) := by
  obtain ⟨plain, first, others, start, noDot⟩ := Mnemonic.plain_of_ofName? known
  have visible : ∀ character ∈ name.toList, (character != ' ') = true := by
    intro character there
    simpa using (plain character there).1
  have noLabel : (name.toList ++ text).getLast? ≠ some ':' := by
    intro last
    rcases List.mem_append.mp (List.mem_of_getLast? last) with there | there
    · exact (plain _ there).2.2.1 rfl
    · exact noColon there
  have head : (name.toList ++ text).takeWhile (· != ' ') = name.toList := by
    rw [List.takeWhile_append_of_pos visible, bare, List.append_nil]
  have tail : (name.toList ++ text).dropWhile (· != ' ') = text := by
    rw [List.dropWhile_append_of_pos visible, apart]
  unfold ofContent?
  split
  · simp_all
  · simp_all
  · rw [if_neg noLabel, head, tail, String.ofList_toList, known, read]
    rfl

/-- An operation with one operand is read as its mnemonic and the operand. -/
theorem ofContent?_unary {name operand : String} {mnemonic : Mnemonic}
    (known : Mnemonic.ofName? name = some mnemonic) (plain : Plain operand.toList)
    {read : Operand} (reads : Operand.ofText? operand.toList = some read) :
    ofContent? (Operation.unary name operand).toList = some (.instruction mnemonic [read]) := by
  have text : (Operation.unary name operand).toList = name.toList ++ ' ' :: operand.toList := by
    simp [Operation.unary]
  have noColon : ':' ∉ ' ' :: operand.toList := by
    rw [List.mem_cons, not_or]
    exact ⟨by decide, fun there => (plain _ there).2.2.1 rfl⟩
  rw [text]
  exact ofContent?_of_mnemonic known rfl rfl noColon (operands?_one plain reads)

/-- An operation with two operands is read as its mnemonic and the operands. -/
theorem ofContent?_binary {name source target : String} {mnemonic : Mnemonic}
    (known : Mnemonic.ofName? name = some mnemonic) (plainSource : Plain source.toList)
    (plainTarget : Plain target.toList) {first second : Operand}
    (readSource : Operand.ofText? source.toList = some first)
    (readTarget : Operand.ofText? target.toList = some second) :
    ofContent? (Operation.binary name source target).toList =
      some (.instruction mnemonic [first, second]) := by
  have text : (Operation.binary name source target).toList =
      name.toList ++ (' ' :: source.toList ++ ',' :: ' ' :: target.toList) := by
    simp [Operation.binary]
  have noColon : ':' ∉ ' ' :: source.toList ++ ',' :: ' ' :: target.toList := by
    simp only [List.cons_append, List.mem_cons, List.mem_append, not_or]
    exact ⟨by decide, fun there => (plainSource _ there).2.2.1 rfl, by decide, by decide,
      fun there => (plainTarget _ there).2.2.1 rfl⟩
  rw [text]
  exact ofContent?_of_mnemonic known rfl rfl noColon
    (operands?_two plainSource plainTarget readSource readTarget)

end Statement

/-! ## Lines -/

/-- The statement that an operation stands for. -/
def Operation.statement : Operation → Statement
  | pushImmediate value => .instruction .push [.immediate value]
  | push source => .instruction .push [.register source]
  | pop target => .instruction .pop [.register target]
  | moveWide value target => .instruction .movabs [.immediate value, .register target]
  | moveImmediate value target => .instruction .mov [.immediate value, .register target]
  | move source target => .instruction .mov [.register source, .register target]
  | load pointer target => .instruction .mov [.memory pointer, .register target]
  | address label target => .instruction .lea [.relative label.name, .register target]
  | add source target => .instruction .add [.register source, .register target]
  | addImmediate value target => .instruction .add [.immediate value, .register target]
  | subtractImmediate value target => .instruction .sub [.immediate value, .register target]
  | multiply source target => .instruction .imul [.register source, .register target]
  | andImmediate value target => .instruction .and [.immediate value, .register target]
  | exclusiveOr source target => .instruction .xor [.register source, .register target]
  | exclusiveOrLow source target => .instruction .xor [.lowRegister source, .lowRegister target]
  | compare source target => .instruction .cmp [.register source, .register target]
  | jump label => .instruction .jmp [.symbol label.name]
  | jumpLess label => .instruction .jl [.symbol label.name]
  | call routine => .instruction .call [.symbol routine.name]
  | systemCall => .instruction .syscall []

/-- The text of an operation is read as the statement it stands for. -/
theorem Operation.ofContent?_text (operation : Operation) :
    Statement.ofContent? operation.text.toList = some operation.statement := by
  have symbol : ∀ label : Label, Plain label.name.toList :=
    fun label => plain_of_symbol? label.symbol?_name
  cases operation with
  | pushImmediate value =>
    exact Statement.ofContent?_unary rfl (plain_immediate value) (Operand.ofText?_immediate value)
  | push source =>
    exact Statement.ofContent?_unary rfl source.plain_text (Operand.ofText?_register source)
  | pop target =>
    exact Statement.ofContent?_unary rfl target.plain_text (Operand.ofText?_register target)
  | jump label =>
    exact Statement.ofContent?_unary rfl (symbol label) (Operand.ofText?_symbol label.symbol?_name)
  | jumpLess label =>
    exact Statement.ofContent?_unary rfl (symbol label) (Operand.ofText?_symbol label.symbol?_name)
  | call routine =>
    exact Statement.ofContent?_unary rfl (plain_of_symbol? routine.symbol?_name)
      (Operand.ofText?_symbol routine.symbol?_name)
  | moveWide value target | moveImmediate value target | addImmediate value target
  | subtractImmediate value target | andImmediate value target =>
    exact Statement.ofContent?_binary rfl (plain_immediate value) target.plain_text
      (Operand.ofText?_immediate value) (Operand.ofText?_register target)
  | move source target | add source target | multiply source target | exclusiveOr source target
  | compare source target =>
    exact Statement.ofContent?_binary rfl source.plain_text target.plain_text
      (Operand.ofText?_register source) (Operand.ofText?_register target)
  | load pointer target =>
    have plain : Plain ("(" ++ pointer.text ++ ")").toList := by
      cases pointer <;> decide
    exact Statement.ofContent?_binary rfl plain target.plain_text
      (Operand.ofText?_memory pointer) (Operand.ofText?_register target)
  | address label target =>
    have plain : Plain (label.name ++ "(%rip)").toList := by
      rw [String.toList_append]
      exact Plain.append (symbol label) (by decide)
    exact Statement.ofContent?_binary rfl plain target.plain_text
      (Operand.ofText?_relative label.symbol?_name) (Operand.ofText?_register target)
  | exclusiveOrLow source target =>
    exact Statement.ofContent?_binary rfl source.plain_lowText target.plain_lowText
      (Operand.ofText?_lowRegister source) (Operand.ofText?_lowRegister target)
  | systemCall => decide

/-- No blanks stand before an operation. -/
theorem Operation.dropWhile_blank_text (operation : Operation) :
    operation.text.toList.dropWhile (· == ' ') = operation.text.toList := by
  cases operation <;> simp [text, unary, binary]

namespace Line

/-- The statement that a line stands for. -/
def statement : Line → Statement
  | blank => .blank
  | segment kind => .segment kind.name
  | global place => .global place.name
  | label place => .label place.name
  | characters quoted => .string ((Statement.unquote (quoted.toList ++ ['"'])).getD [])
  | operation _ content => content.statement

/-- Whether the characters of a line, if it holds any, end where their line ends. -/
def isReadable : Line → Bool
  | characters quoted =>
    (Statement.unquote (quoted.toList ++ ['"'])).isSome && !quoted.toList.contains '\n'
  | _ => true

/-- So many blanks are that many blanks. -/
@[simp]
theorem toList_blanks (count : Nat) : (blanks count).toList = List.replicate count ' ' := by
  induction count with
  | zero => rfl
  | succ count ih =>
    have grown : blanks (count + 1) = (blanks count).push ' ' := by
      simp [blanks, String.pushn_eq_repeat_push, Nat.repeat]
    rw [grown, String.toList_push, ih, List.replicate_succ']

/-- Dropping blanks drops a margin. -/
theorem dropWhile_replicate (count : Nat) (text : List Char) :
    (List.replicate count ' ' ++ text).dropWhile (· == ' ') = text.dropWhile (· == ' ') := by
  have blank : ∀ character ∈ List.replicate count ' ', (character == ' ') = true := by
    intro character there
    simp [List.eq_of_mem_replicate there]
  exact List.dropWhile_append_of_pos blank

/-- Blanks at the start of a line are passed over. -/
theorem ofLine?_blanks (count : Nat) (text : List Char) :
    Statement.ofLine? (List.replicate count ' ' ++ text) = Statement.ofLine? text := by
  rw [Statement.ofLine?, dropWhile_replicate, Statement.ofLine?]

/-- The text of an operation, behind any number of blanks, is read as the operation. -/
theorem ofLine?_operation (indent : Nat) (content : Operation) :
    Statement.ofLine? (operation indent content).text.toList = some content.statement := by
  rw [text, String.toList_append, toList_blanks, ofLine?_blanks, Statement.ofLine?,
    content.dropWhile_blank_text, content.ofContent?_text]

/-- A name with a colon behind it is read as the definition of a symbol. -/
theorem ofLine?_label (place : Label) :
    Statement.ofLine? (label place).text.toList = some (.label place.name) := by
  have start : ∃ first others, place.name.toList = first :: others ∧ first ≠ ' ' ∧ first ≠ '.' := by
    cases place <;> simp [Label.name, LoopNumber.topName, LoopNumber.endName]
  obtain ⟨first, others, spelled, visible, noDot⟩ := start
  have content : (label place).text.toList = first :: (others ++ [':']) := by
    simp [text, spelled]
  have last : (first :: (others ++ [':'])).getLast? = some ':' := by
    rw [← List.cons_append, List.getLast?_concat]
  have rest : (first :: (others ++ [':'])).dropLast = place.name.toList := by
    rw [← List.cons_append, List.dropLast_concat, spelled]
  rw [content, Statement.ofLine?, List.dropWhile_cons_of_neg (by simpa using visible)]
  unfold Statement.ofContent?
  split
  · simp_all
  · simp_all
  · rw [if_pos last, rest, place.symbol?_name]
    rfl

/-- A readable line is read as the statement it stands for. -/
theorem ofLine?_text {line : Line} (readable : line.isReadable = true) :
    Statement.ofLine? line.text.toList = some line.statement := by
  cases line with
  | blank => rfl
  | segment kind => cases kind <;> decide
  | global place =>
    have content : (global place).text.toList =
        '.' :: 'g' :: 'l' :: 'o' :: 'b' :: 'l' :: ' ' :: place.name.toList := by
      simp [text]
    rw [content]
    change (symbol? place.name.toList).map Statement.global = _
    rw [place.symbol?_name]
    rfl
  | label place => exact ofLine?_label place
  | characters quoted =>
    have content : (characters quoted).text.toList =
        List.replicate margin ' ' ++ '.' :: 'a' :: 's' :: 'c' :: 'i' :: 'z' :: ' ' :: '"' ::
          (quoted.toList ++ ['"']) := by
      simp [text]
    rw [content, ofLine?_blanks]
    change (Statement.unquote (quoted.toList ++ ['"'])).map Statement.string = _
    rw [isReadable, Bool.and_eq_true, Option.isSome_iff_exists] at readable
    obtain ⟨⟨found, unquoted⟩, _⟩ := readable
    rw [statement, unquoted]
    rfl
  | operation indent content => exact ofLine?_operation indent content

/-- The text of an operation stays on its line and defines no label. -/
theorem inlineText_operation (content : Operation) : InlineText content.text.toList := by
  have symbol := fun label : Label => (plain_of_symbol? label.symbol?_name).inline
  have value := fun value : Int => (Operation.plain_immediate value).inline
  have whole := fun register : Register => register.plain_text.inline
  have low := fun register : Register => register.plain_lowText.inline
  have outside := fun routine : Routine => (plain_of_symbol? routine.symbol?_name).inline
  have unary : ∀ {name operand : String}, InlineText name.toList → InlineText operand.toList →
      InlineText (Operation.unary name operand).toList := by
    intro name operand first second
    rw [Operation.unary, String.toList_append, String.toList_append]
    exact (first.append (by decide)).append second
  have binary : ∀ {name source target : String}, InlineText name.toList →
      InlineText source.toList → InlineText target.toList →
      InlineText (Operation.binary name source target).toList := by
    intro name source target first second third
    rw [Operation.binary, String.toList_append, String.toList_append, String.toList_append,
      String.toList_append]
    exact (((first.append (by decide)).append second).append (by decide)).append third
  cases content with
  | pushImmediate number => exact unary (by decide) (value number)
  | push register | pop register => exact unary (by decide) (whole register)
  | moveWide number target | moveImmediate number target | addImmediate number target
    | subtractImmediate number target | andImmediate number target =>
    exact binary (by decide) (value number) (whole target)
  | move source target | add source target | multiply source target | exclusiveOr source target
    | compare source target => exact binary (by decide) (whole source) (whole target)
  | exclusiveOrLow source target => exact binary (by decide) (low source) (low target)
  | load pointer target =>
    refine binary (by decide) ?_ (whole target)
    rw [String.toList_append, String.toList_append]
    exact (InlineText.append (by decide) (whole pointer)).append (by decide)
  | address label target =>
    refine binary (by decide) ?_ (whole target)
    rw [String.toList_append]
    exact (symbol label).append (by decide)
  | jump label | jumpLess label => exact unary (by decide) (symbol label)
  | call routine => exact unary (by decide) (outside routine)
  | systemCall => decide

/-- A readable line holds no line feed. -/
theorem lineFeed_not_mem_text {line : Line} (readable : line.isReadable = true) :
    '\n' ∉ line.text.toList := by
  have symbol : ∀ label : Label, '\n' ∉ label.name.toList :=
    fun label there => (plain_of_symbol? label.symbol?_name _ there).2.2.2.1 rfl
  cases line with
  | blank => simp [text]
  | segment kind => cases kind <;> decide
  | global place => simp [text, symbol]
  | label place => simp [text, symbol]
  | characters quoted =>
    simp only [isReadable, Bool.and_eq_true] at readable
    simpa [text] using readable.2
  | operation indent content =>
    have inline : '\n' ∉ content.text.toList :=
      fun there => (inlineText_operation content _ there).2.1 rfl
    simp [text, inline]

/-- The rows of a text are the texts of its lines, and nothing stands behind the last one. -/
theorem cutAt_textOf {lines : List Line} (readable : ∀ line ∈ lines, line.isReadable = true) :
    cutAt '\n' (textOf lines).toList = lines.map (fun line => line.text.toList) ++ [[]] := by
  induction lines with
  | nil => rfl
  | cons line lines ih =>
    have first := readable line List.mem_cons_self
    have others : ∀ other ∈ lines, other.isReadable = true :=
      fun other there => readable other (List.mem_cons_of_mem line there)
    have content : (textOf (line :: lines)).toList =
        line.text.toList ++ '\n' :: (textOf lines).toList := by
      simp
    rw [content, cutAt_append (lineFeed_not_mem_text first), ih others]
    rfl

/-- The rows of a text are read as the statements that its lines stand for. -/
theorem mapM_ofLine?_rows {lines : List Line} (readable : ∀ line ∈ lines, line.isReadable = true) :
    (cutAt '\n' (textOf lines).toList).mapM Statement.ofLine? =
      some (lines.map statement ++ [.blank]) := by
  rw [cutAt_textOf readable]
  induction lines with
  | nil => rfl
  | cons line lines ih =>
    have others := ih fun other there => readable other (List.mem_cons_of_mem line there)
    rw [List.map_cons, List.cons_append, List.mapM_cons,
      ofLine?_text (readable line List.mem_cons_self), others]
    rfl

end Line

end ForthAsm
