import ForthAsm.Instruction.OfWord
import ForthAsm.Proofs.Numerals
import Mathlib.Data.List.Nodup

/-!
# What a word is read as

The text of a word decides alone what the word is read as. A run of digits stands for its value,
and it is the value and not the length that may be too large. Any other text is a word of the
vocabulary or unrecognized. The four cases are told by a relation, `Instruction.ReadAs`, of which
no two can apply to one text.

Main statement: `Instruction.ofWord_exact`, what every text is read as, and what becomes of the
supply of loop numbers.
-/

namespace ForthAsm

namespace Instruction

/-- The words of the language and what they ask for; a dump gets a loop of its own. -/
def vocabulary (loop : LoopNumber) : List (String × Instruction) :=
  [("dup", duplicate), ("*", multiply), (".", print), ("+", add), ("swap", swap), ("nip", nip),
    ("tuck", tuck), (".s", dump loop)]

/-- What a word is read as, if the next dump gets a given loop. -/
inductive ReadAs (word : Word) (loop : LoopNumber) : Except CompileFailure Instruction → Prop
  /-- A run of digits is read as the number with its value. -/
  | number {value : UInt64} (digits : Literal.IsDigits word.text)
      (same : Literal.placeValue word.text = value.toNat) : ReadAs word loop (.ok (.push value))
  /-- A run of digits whose value takes more than 64 bits is a failure. -/
  | large (digits : Literal.IsDigits word.text)
      (large : 2 ^ 64 ≤ Literal.placeValue word.text) :
      ReadAs word loop (.error (.literalOutOfRange word))
  /-- A word of the vocabulary is read as what it asks for. -/
  | known {instruction : Instruction} (entry : (word.text, instruction) ∈ vocabulary loop) :
      ReadAs word loop (.ok instruction)
  /-- Any other text is kept as it is. -/
  | unknown (other : ¬Literal.IsDigits word.text)
      (absent : ∀ entry ∈ vocabulary loop, word.text ≠ entry.1) :
      ReadAs word loop (.ok (.unrecognized word.text))

variable {word : Word} {loop : LoopNumber}

/-- No word of the vocabulary is a run of digits. -/
theorem not_isDigits_of_mem {name : String} {instruction : Instruction}
    (known : (name, instruction) ∈ vocabulary loop) : ¬Literal.IsDigits name := by
  simp only [vocabulary, List.mem_cons, Prod.mk.injEq, List.not_mem_nil, or_false] at known
  rcases known with ⟨rfl, -⟩ | ⟨rfl, -⟩ | ⟨rfl, -⟩ | ⟨rfl, -⟩ | ⟨rfl, -⟩ | ⟨rfl, -⟩ | ⟨rfl, -⟩ |
    ⟨rfl, -⟩
  all_goals decide

/-- A word of the vocabulary other than the one for a dump is the name of an operation. -/
theorem ofName?_of_mem {name : String} {instruction : Instruction}
    (known : (name, instruction) ∈ vocabulary loop) (other : name ≠ dumpName) :
    ofName? name = some instruction := by
  simp only [vocabulary, List.mem_cons, Prod.mk.injEq, List.not_mem_nil, or_false] at known
  rcases known with ⟨rfl, rfl⟩ | ⟨rfl, rfl⟩ | ⟨rfl, rfl⟩ | ⟨rfl, rfl⟩ | ⟨rfl, rfl⟩ | ⟨rfl, rfl⟩ |
    ⟨rfl, rfl⟩ | ⟨rfl, rfl⟩
  case inr.inr.inr.inr.inr.inr.inr => contradiction
  all_goals rfl

/-- The name of an operation is a word of the vocabulary. -/
theorem mem_of_ofName? {name : String} {instruction : Instruction}
    (named : ofName? name = some instruction) (loop : LoopNumber) :
    (name, instruction) ∈ vocabulary loop := by
  unfold ofName? at named
  split at named
  case h_8 => contradiction
  all_goals
    cases named
    simp [vocabulary]

/-- Every word is read as one of the four things. -/
theorem readAs_ofWord (word : Word) (supply : LoopSupply) :
    ReadAs word ⟨supply.drawn⟩ (ofWord word supply).1 := by
  unfold ofWord
  by_cases digits : Literal.IsDigits word.text
  · rw [if_pos (Literal.isNumeral_iff.mpr digits)]
    cases found : Literal.value? word.text with
    | some value => exact .number digits (Literal.value?_eq_some_iff.mp found)
    | none => exact .large digits (Literal.value?_eq_none_iff.mp found)
  · rw [if_neg (mt Literal.isNumeral_iff.mp digits)]
    by_cases dump : word.text = dumpName
    · rw [if_pos dump]
      apply ReadAs.known
      rw [dump]
      simp [vocabulary, dumpName, LoopSupply.draw]
    · rw [if_neg dump]
      cases named : ofName? word.text with
      | some instruction => exact .known (mem_of_ofName? named _)
      | none =>
        apply ReadAs.unknown digits
        rintro ⟨name, instruction⟩ there (same : word.text = name)
        have other : name ≠ dumpName := fun dumps => dump (same.trans dumps)
        have found := ofName?_of_mem there other
        rw [← same, named] at found
        contradiction

/-- A word is read as nothing else. -/
theorem ReadAs.ofWord_eq {supply : LoopSupply} {outcome : Except CompileFailure Instruction}
    (read : ReadAs word ⟨supply.drawn⟩ outcome) : (ofWord word supply).1 = outcome := by
  cases read with
  | number digits same =>
    rw [ofWord, if_pos (Literal.isNumeral_iff.mpr digits), Literal.value?_eq_some_iff.mpr same]
  | large digits large =>
    rw [ofWord, if_pos (Literal.isNumeral_iff.mpr digits), Literal.value?_eq_none_iff.mpr large]
  | known entry =>
    rw [ofWord, if_neg (mt Literal.isNumeral_iff.mp (not_isDigits_of_mem entry))]
    by_cases dump : word.text = dumpName
    · rw [dump] at entry
      rw [if_pos dump]
      simpa [vocabulary, dumpName, LoopSupply.draw, eq_comm] using entry
    · rw [if_neg dump, ofName?_of_mem entry dump, Option.getD_some]
  | unknown other absent =>
    have noDump : word.text ≠ dumpName := absent (".s", .dump ⟨supply.drawn⟩) (by simp [vocabulary])
    have unnamed : ofName? word.text = none := by
      rw [Option.eq_none_iff_forall_ne_some]
      intro instruction named
      exact absent _ (mem_of_ofName? named _) rfl
    rw [ofWord, if_neg (mt Literal.isNumeral_iff.mp other), if_neg noDump, unnamed,
      Option.getD_none]

/-- What a word is read as, as a relation. -/
theorem ofWord_eq_iff {supply : LoopSupply} {outcome : Except CompileFailure Instruction} :
    (ofWord word supply).1 = outcome ↔ ReadAs word ⟨supply.drawn⟩ outcome := by
  constructor
  · rintro rfl
    exact readAs_ofWord word supply
  · exact ReadAs.ofWord_eq

/-- No two words of the vocabulary ask for the same. -/
theorem vocabulary_injective {name other : String} {instruction : Instruction}
    (known : (name, instruction) ∈ vocabulary loop)
    (alike : (other, instruction) ∈ vocabulary loop) : name = other := by
  have distinct : ((vocabulary loop).map Prod.snd).Nodup := by
    simp [vocabulary]
  have same := List.inj_on_of_nodup_map distinct known alike rfl
  exact congrArg Prod.fst same

namespace ReadAs

/-- Only a run of digits is read as a number, and the number has its value. -/
theorem push_iff {value : UInt64} : ReadAs word loop (.ok (.push value)) ↔
    Literal.IsDigits word.text ∧ Literal.placeValue word.text = value.toNat := by
  constructor
  · intro read
    cases read with
    | number digits same => exact ⟨digits, same⟩
    | known entry => simp [vocabulary] at entry
  · rintro ⟨digits, same⟩
    exact .number digits same

/-- Only a run of digits with too large a value is a failure, and the failure is the word. -/
theorem error_iff {failure : CompileFailure} : ReadAs word loop (.error failure) ↔
    failure = .literalOutOfRange word ∧ Literal.IsDigits word.text ∧
      2 ^ 64 ≤ Literal.placeValue word.text := by
  constructor
  · intro read
    cases read with
    | large digits large => exact ⟨rfl, digits, large⟩
  · rintro ⟨rfl, digits, large⟩
    exact .large digits large

/-- Only its own word is read as what a word of the vocabulary asks for. -/
theorem known_iff {name : String} {instruction : Instruction}
    (entry : (name, instruction) ∈ vocabulary loop) :
    ReadAs word loop (.ok instruction) ↔ word.text = name := by
  constructor
  · intro read
    cases read with
    | number digits same => simp [vocabulary] at entry
    | known other => exact vocabulary_injective other entry
    | unknown other absent => simp [vocabulary] at entry
  · rintro rfl
    exact .known entry

/-- Only a text that is neither digits nor in the vocabulary is kept, and it is kept unchanged. -/
theorem unrecognized_iff {text : String} : ReadAs word loop (.ok (.unrecognized text)) ↔
    text = word.text ∧ ¬Literal.IsDigits word.text ∧
      ∀ entry ∈ vocabulary loop, word.text ≠ entry.1 := by
  constructor
  · intro read
    cases read with
    | known entry => simp [vocabulary] at entry
    | unknown other absent => exact ⟨rfl, other, absent⟩
  · rintro ⟨rfl, other, absent⟩
    exact .unknown other absent

/-- Only the word for a dump is read as a dump, and the dump has the given loop. -/
theorem dump_iff {other : LoopNumber} : ReadAs word loop (.ok (.dump other)) ↔
    word.text = dumpName ∧ other = loop := by
  constructor
  · intro read
    cases read with
    | known entry => simpa [vocabulary, dumpName] using entry
  · rintro ⟨dump, rfl⟩
    apply ReadAs.known
    rw [dump]
    simp [vocabulary, dumpName]

end ReadAs

/-- The word for a dump draws one number from a supply that has one left. -/
theorem toNat_drawn_ofWord {supply : LoopSupply} (left : supply.drawn.toNat < 2 ^ 32 - 1)
    (dump : word.text = dumpName) :
    (ofWord word supply).2.drawn.toNat = supply.drawn.toNat + 1 := by
  have limit : UInt32.size = 2 ^ 32 := rfl
  have room : supply.drawn.toNat + 1 < UInt32.size := by omega
  rw [ofWord, dump, if_neg (by decide), if_pos rfl]
  exact LoopSupply.toNat_drawn_draw room

/-- What a word is read as is decided by its text, for texts of every kind. It is read as a number
exactly if it is a run of digits with that value, it is a failure exactly if it is a run of digits
whose value takes more than 64 bits, it is read as what a word of the vocabulary asks for exactly
if it is that word, and it is kept unchanged exactly in all other cases. The supply of loop numbers
goes on by one, and the dump gets the number drawn so far, exactly if the text is the word for a
dump; otherwise the supply is left as it was, also by a failure. -/
theorem ofWord_exact (word : Word) {supply : LoopSupply}
    (left : supply.drawn.toNat < 2 ^ 32 - 1) :
    (∀ value, (ofWord word supply).1 = .ok (.push value) ↔
      Literal.IsDigits word.text ∧ Literal.placeValue word.text = value.toNat) ∧
    (∀ failure, (ofWord word supply).1 = .error failure ↔
      failure = .literalOutOfRange word ∧ Literal.IsDigits word.text ∧
        2 ^ 64 ≤ Literal.placeValue word.text) ∧
    (∀ name instruction, (name, instruction) ∈ vocabulary ⟨supply.drawn⟩ →
      ((ofWord word supply).1 = .ok instruction ↔ word.text = name)) ∧
    (∀ text, (ofWord word supply).1 = .ok (.unrecognized text) ↔
      text = word.text ∧ ¬Literal.IsDigits word.text ∧
        ∀ entry ∈ vocabulary ⟨supply.drawn⟩, word.text ≠ entry.1) ∧
    (∀ loop, (ofWord word supply).1 = .ok (.dump loop) ↔
      word.text = ".s" ∧ loop = ⟨supply.drawn⟩) ∧
    ((ofWord word supply).2.drawn.toNat = supply.drawn.toNat + 1 ↔ word.text = ".s") ∧
    (word.text ≠ ".s" → (ofWord word supply).2 = supply) := by
  have kept : word.text ≠ ".s" → (ofWord word supply).2 = supply :=
    fun other => ofWord_supply_of_ne other supply
  refine ⟨?_, ?_, ?_, ?_, ?_, ?_, kept⟩
  · intro value
    rw [ofWord_eq_iff, ReadAs.push_iff]
  · intro failure
    rw [ofWord_eq_iff, ReadAs.error_iff]
  · intro name instruction entry
    rw [ofWord_eq_iff, ReadAs.known_iff entry]
  · intro text
    rw [ofWord_eq_iff, ReadAs.unrecognized_iff]
  · intro loop
    rw [ofWord_eq_iff, ReadAs.dump_iff]
    rfl
  · constructor
    · intro advanced
      by_contra other
      rw [kept other] at advanced
      omega
    · exact toNat_drawn_ofWord left

/-- A literal with leading zeros that just fits, one that just does not, a near miss of the word
for a dump, and a dump that draws the last number but one. -/
theorem ofWord_exact_last :
    (ofWord ⟨"00018446744073709551615", ⟨1, 1⟩⟩ ⟨4294967294⟩).1 =
        .ok (.push 18446744073709551615) ∧
      (ofWord ⟨"18446744073709551616", ⟨2, 5⟩⟩ ⟨4294967294⟩).1 =
        .error (.literalOutOfRange ⟨"18446744073709551616", ⟨2, 5⟩⟩) ∧
      (ofWord ⟨"..s", ⟨3, 1⟩⟩ ⟨4294967294⟩).1 = .ok (.unrecognized "..s") ∧
      (ofWord ⟨".s", ⟨3, 5⟩⟩ ⟨4294967294⟩).1 = .ok (.dump ⟨4294967294⟩) ∧
      (ofWord ⟨".s", ⟨3, 5⟩⟩ ⟨4294967294⟩).2.drawn.toNat = 4294967295 := by
  have left : (⟨4294967294⟩ : LoopSupply).drawn.toNat < 2 ^ 32 - 1 := by decide
  obtain ⟨number, -⟩ := ofWord_exact ⟨"00018446744073709551615", ⟨1, 1⟩⟩ left
  obtain ⟨-, failure, -⟩ := ofWord_exact ⟨"18446744073709551616", ⟨2, 5⟩⟩ left
  obtain ⟨-, -, -, unrecognized, -⟩ := ofWord_exact ⟨"..s", ⟨3, 1⟩⟩ left
  obtain ⟨-, -, -, -, dump, advanced, -⟩ := ofWord_exact ⟨".s", ⟨3, 5⟩⟩ left
  refine ⟨?_, ?_, ?_, ?_, ?_⟩
  · exact (number _).mpr ⟨by decide, by decide⟩
  · exact (failure _).mpr ⟨rfl, by decide, by decide⟩
  · exact (unrecognized _).mpr ⟨rfl, by decide, by decide⟩
  · exact (dump _).mpr ⟨rfl, rfl⟩
  · exact advanced.mpr rfl

end Instruction

end ForthAsm
