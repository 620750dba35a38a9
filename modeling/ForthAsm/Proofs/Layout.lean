import ForthAsm.Proofs.Scan
import Mathlib.Data.List.Chain

/-!
# Words laid out as a source

Which lists of words can be read at all? Their texts are not empty and hold neither blanks nor
comment marks, their positions go on from word to word, and between two words in one line there is
room for a blank. Nothing else is asked: any such list can be laid out with line feeds and spaces,
and reading the layout gives the list back, each word at its position.

Both directions go through `Word.LaidFrom`, words that stand one behind the other from a position
on. A scan finds such words (`Mode.Since.laidFrom_scan`), and such words are found in their layout
(`Word.LaidFrom.scan_layoutFrom`).

Main statement: `Word.readable_iff_layout`.
-/

namespace ForthAsm

/-- The byte with the number of a character. -/
def Byte.ofChar (character : Char) : UInt8 :=
  UInt8.ofNat character.toNat

namespace Position

/-- A position is the same as another or comes before it. -/
def NotAfter (position other : Position) : Prop :=
  position.line < other.line ∨
    position.line = other.line ∧ position.column ≤ other.column

/-- Lines and columns are counted from one. -/
def Counted (position : Position) : Prop :=
  1 ≤ position.line ∧ 1 ≤ position.column

/-- The line feeds and spaces that lead from a position to another one behind it. -/
def gap (position other : Position) : List UInt8 :=
  if position.line < other.line then
    List.replicate (other.line - position.line) Byte.lineFeed ++
      List.replicate (other.column - 1) 32
  else List.replicate (other.column - position.column) 32

end Position

namespace Word

/-- A character that a word can hold: it is the character of a byte, and neither a blank nor a
comment mark. -/
def CanHold (character : Char) : Prop :=
  character.toNat ≤ 0xff ∧ character ∉ [' ', '\t', '\r', '\n', '/', '\\']

/-- Whether a word can hold a character can be decided. -/
instance (character : Char) : Decidable (CanHold character) :=
  inferInstanceAs (Decidable (_ ∧ _))

/-- A word that can be read on its own. -/
structure Readable (word : Word) : Prop where
  /-- It is not empty. -/
  nonempty : word.text ≠ ""
  /-- It holds neither blanks nor comment marks. -/
  holds : ∀ character ∈ word.text.toList, CanHold character
  /-- Its position can be counted. -/
  counted : word.position.Counted

/-- A word can be followed by another one in a later line, or in the same line with a blank
between them. -/
def Before (word other : Word) : Prop :=
  word.position.line < other.position.line ∨
    word.position.line = other.position.line ∧
      word.position.column + word.text.length + 1 ≤ other.position.column

/-- Whether a word can be read on its own can be decided. -/
instance (word : Word) : Decidable word.Readable :=
  decidable_of_iff (word.text ≠ "" ∧ word.text.toList.all (CanHold ·) = true ∧
      1 ≤ word.position.line ∧ 1 ≤ word.position.column)
    ⟨fun ⟨nonempty, holds, counted⟩ => ⟨nonempty, by simpa using holds, counted⟩,
      fun ⟨nonempty, holds, counted⟩ => ⟨nonempty, by simpa using holds, counted⟩⟩

/-- Whether a word can be followed by another one can be decided. -/
instance (word other : Word) : Decidable (word.Before other) :=
  inferInstanceAs (Decidable (_ ∨ _))

/-- Words that can be read from one source. -/
structure AllReadable (words : List Word) : Prop where
  /-- Each word can be read on its own. -/
  each : ∀ word ∈ words, word.Readable
  /-- Each word can be followed by the next one. -/
  ordered : words.IsChain Before

/-- Whether words can be read from one source can be decided. -/
instance (words : List Word) : Decidable (AllReadable words) :=
  decidable_of_iff ((∀ word ∈ words, word.Readable) ∧ words.IsChain Before)
    ⟨fun ⟨each, ordered⟩ => ⟨each, ordered⟩, fun ⟨each, ordered⟩ => ⟨each, ordered⟩⟩

/-- The position behind a word. -/
def behind (word : Word) : Position :=
  ⟨word.position.line, word.position.column + word.text.length⟩

/-- The position behind a word and a blank. -/
def next (word : Word) : Position :=
  ⟨word.position.line, word.position.column + word.text.length + 1⟩

/-- The bytes of a word. -/
def bytes (word : Word) : List UInt8 :=
  word.text.toList.map Byte.ofChar

/-- Words laid out from a position on, with line feeds and spaces between them. -/
def layoutFrom (position : Position) : List Word → List UInt8
  | [] => []
  | word :: words =>
    position.gap word.position ++ word.bytes ++ layoutFrom word.behind words

/-- Words laid out as a source. -/
def layout (words : List Word) : List UInt8 :=
  layoutFrom Position.start words

/-- Words that stand one behind the other from a position on. -/
inductive LaidFrom : Position → List Word → Prop
  | nil {position : Position} : LaidFrom position []
  | cons {position : Position} {word : Word} {words : List Word} (readable : word.Readable)
      (late : position.NotAfter word.position) (rest : LaidFrom word.next words) :
      LaidFrom position (word :: words)

end Word

/-! ## Positions -/

namespace Position

variable {position other last : Position}

theorem NotAfter.refl (position : Position) : position.NotAfter position :=
  .inr ⟨rfl, Nat.le_refl _⟩

theorem NotAfter.trans (first : position.NotAfter other) (second : other.NotAfter last) :
    position.NotAfter last := by
  unfold NotAfter at *
  omega

/-- A byte leads to a later position. -/
theorem NotAfter.advance (first : position.NotAfter other) (byte : UInt8) :
    position.NotAfter (other.advance byte) := by
  unfold NotAfter Position.advance at *
  split <;> simp only <;> omega

/-- A byte leads to a position that can be counted. -/
theorem Counted.advance (counted : position.Counted) (byte : UInt8) :
    (position.advance byte).Counted := by
  unfold Counted Position.advance at *
  split <;> simp only <;> omega

/-- No position that can be counted comes before the start. -/
theorem Counted.start_notAfter (counted : position.Counted) : start.NotAfter position := by
  unfold Counted NotAfter start at *
  simp only
  omega

/-- Line feeds lead to the start of a later line. -/
theorem advanceAll_lineFeeds (position : Position) (count : Nat) :
    position.advanceAll (List.replicate (count + 1) Byte.lineFeed) =
      ⟨position.line + count + 1, 1⟩ := by
  induction count generalizing position with
  | zero => simp
  | succ count ih =>
    rw [List.replicate_succ, advanceAll_cons, ih, advance_lineFeed]
    simp only [Position.mk.injEq, and_true]
    omega

/-- Bytes without a line feed lead on in the same line. -/
theorem advanceAll_of_not_mem {bytes : List UInt8} (inline : Byte.lineFeed ∉ bytes)
    (position : Position) :
    position.advanceAll bytes = ⟨position.line, position.column + bytes.length⟩ := by
  induction bytes generalizing position with
  | nil => rfl
  | cons byte bytes ih =>
    have other : byte ≠ Byte.lineFeed := fun same => inline (same ▸ List.mem_cons_self)
    have others : Byte.lineFeed ∉ bytes := fun there => inline (List.mem_cons_of_mem _ there)
    rw [advanceAll_cons, advance_of_ne other, ih others, List.length_cons]
    simp only [Position.mk.injEq, true_and]
    omega

/-- Spaces lead on in the same line. -/
theorem advanceAll_spaces (position : Position) (count : Nat) :
    position.advanceAll (List.replicate count 32) =
      ⟨position.line, position.column + count⟩ := by
  have inline : Byte.lineFeed ∉ List.replicate count (32 : UInt8) := by
    intro there
    exact absurd (List.eq_of_mem_replicate there) (by decide)
  rw [advanceAll_of_not_mem inline, List.length_replicate]

/-- The gap to a position leads there. -/
theorem advanceAll_gap (late : position.NotAfter other) (counted : other.Counted) :
    position.advanceAll (position.gap other) = other := by
  unfold gap
  by_cases below : position.line < other.line
  · have lines : other.line - position.line = other.line - position.line - 1 + 1 := by omega
    have column := counted.2
    rw [if_pos below, advanceAll_append, lines, advanceAll_lineFeeds, advanceAll_spaces]
    cases other with
    | mk line column =>
      simp only [Position.mk.injEq] at *
      omega
  · have same : position.line = other.line ∧ position.column ≤ other.column := by
      unfold NotAfter at late
      omega
    rw [if_neg below, advanceAll_spaces]
    cases other with
    | mk line column =>
      simp only [Position.mk.injEq] at *
      omega

/-- There is a gap from the end of a word to a word that can follow it. -/
theorem gap_ne_nil {line column : Nat} (late : NotAfter ⟨line, column + 1⟩ other) :
    gap ⟨line, column⟩ other ≠ [] := by
  unfold NotAfter at late
  simp only at late
  unfold gap
  simp only
  intro empty
  by_cases below : line < other.line
  · rw [if_pos below, List.append_eq_nil_iff, List.replicate_eq_nil_iff] at empty
    omega
  · rw [if_neg below, List.replicate_eq_nil_iff] at empty
    omega

/-- A gap is made of line feeds and spaces. -/
theorem eq_of_mem_gap {byte : UInt8} (there : byte ∈ position.gap other) :
    byte = Byte.lineFeed ∨ byte = 32 := by
  unfold gap at there
  split at there
  · rcases List.mem_append.mp there with feed | space
    · exact .inl (List.eq_of_mem_replicate feed)
    · exact .inr (List.eq_of_mem_replicate space)
  · exact .inr (List.eq_of_mem_replicate there)

/-- A gap is made of blanks. -/
theorem isBlank_of_mem_gap {byte : UInt8} (there : byte ∈ position.gap other) :
    Byte.isBlank byte = true := by
  rcases eq_of_mem_gap there with rfl | rfl
  · rfl
  · rfl

end Position

/-! ## Characters and bytes -/

namespace Word

/-- A character with the number of a byte is the character of that byte. -/
theorem toChar_ofChar {character : Char} (small : character.toNat ≤ 0xff) :
    Byte.toChar (Byte.ofChar character) = character := by
  apply Char.toNat_inj.mp
  rw [Byte.toNat_toChar, Byte.ofChar, UInt8.toNat_ofNat']
  omega

/-- The characters that a word can hold are those of the word bytes. -/
theorem holds_toChar_iff {byte : UInt8} :
    CanHold (Byte.toChar byte) ↔ Byte.isWordByte byte = true := by
  have small : (Byte.toChar byte).toNat ≤ 0xff := by
    have bound := byte.toNat_lt
    rw [Byte.toNat_toChar]
    omega
  have same : ∀ other : UInt8, Byte.toChar byte = Byte.toChar other ↔ byte = other :=
    fun other => ⟨Byte.toChar_injective, congrArg Byte.toChar⟩
  have marks : [' ', '\t', '\r', '\n', '/', '\\'] =
      [(32 : UInt8), 9, 13, 10, 47, 92].map Byte.toChar := by decide
  rw [CanHold, marks]
  simp only [small, true_and, List.map_cons, List.map_nil, List.mem_cons, List.not_mem_nil,
    or_false, same, Byte.isWordByte, Byte.isBlank, Byte.opensComment, Byte.lineFeed,
    Bool.and_eq_true, Bool.not_eq_true', Bool.or_eq_false_iff, beq_eq_false_iff_ne, not_or]
  tauto

variable {word : Word}

/-- The bytes of a word that can be read are word bytes. -/
theorem Readable.isWordByte (readable : word.Readable) {byte : UInt8} (there : byte ∈ word.bytes) :
    Byte.isWordByte byte = true := by
  obtain ⟨character, inside, rfl⟩ := List.mem_map.mp there
  have holds := readable.holds character inside
  rwa [← holds_toChar_iff, toChar_ofChar holds.1]

/-- A word that can be read is made of its bytes. -/
theorem Readable.ofBytes_bytes (readable : word.Readable) :
    ofBytes word.position word.bytes = word := by
  have characters : word.bytes.map Byte.toChar = word.text.toList := by
    have each : ∀ character ∈ word.text.toList,
        (Byte.toChar ∘ Byte.ofChar) character = id character :=
      fun character inside => toChar_ofChar (readable.holds character inside).1
    rw [bytes, List.map_map, List.map_congr_left each, List.map_id]
  rw [ofBytes, characters, String.ofList_toList]

/-- A word that can be read has a byte. -/
theorem Readable.bytes_ne_nil (readable : word.Readable) : word.bytes ≠ [] := by
  intro empty
  apply readable.nonempty
  simpa [bytes] using empty

end Word

/-! ## Reading a layout -/

namespace Mode

variable {bytes rest : List UInt8}

/-- A blank between words is passed over, and behind a word it ends the word. -/
theorem read_of_isBlank {byte : UInt8} (blank : Byte.isBlank byte = true) (position : Position)
    (unfinished : Word) :
    Mode.blank.read position byte = .onward .blank ∧
      (Mode.word unfinished).read position byte = .complete unfinished := by
  have plain : Byte.opensComment byte = false := by
    cases marks : Byte.opensComment byte with
    | false => rfl
    | true =>
      rw [Byte.isBlank_eq_false_of_opensComment marks] at blank
      contradiction
  simp [read, plain, blank]

/-- A word byte between words starts a word, and behind a word it continues the word. -/
theorem read_of_isWordByte {byte : UInt8} (part : Byte.isWordByte byte = true)
    (position : Position) (unfinished : Word) :
    Mode.blank.read position byte = .onward (.word (Word.ofByte position byte)) ∧
      (Mode.word unfinished).read position byte = .onward (.word (unfinished.extend byte)) := by
  rw [Byte.isWordByte, Bool.and_eq_true, Bool.not_eq_true', Bool.not_eq_true'] at part
  simp [read, part]

/-- Blanks between words are passed over. -/
theorem scan_blanks (blanks : ∀ byte ∈ bytes, Byte.isBlank byte = true) (position : Position) :
    Mode.blank.scan position (bytes ++ rest) =
      Mode.blank.scan (position.advanceAll bytes) rest := by
  induction bytes generalizing position with
  | nil => rfl
  | cons byte bytes ih =>
    have others := ih fun other there => blanks other (List.mem_cons_of_mem _ there)
    have first := blanks byte List.mem_cons_self
    rw [List.cons_append, scan, (read_of_isBlank first position ⟨"", position⟩).1]
    exact others (position.advance byte)

/-- Word bytes behind a word continue it. -/
theorem scan_word_run (run : ∀ byte ∈ bytes, Byte.isWordByte byte = true)
    (start position : Position) (before : List UInt8) :
    (Mode.word (Word.ofBytes start before)).scan position (bytes ++ rest) =
      (Mode.word (Word.ofBytes start (before ++ bytes))).scan (position.advanceAll bytes) rest := by
  induction bytes generalizing position before with
  | nil => rw [List.append_nil, List.nil_append, Position.advanceAll_nil]
  | cons byte bytes ih =>
    have others := ih fun other there => run other (List.mem_cons_of_mem _ there)
    have first := run byte List.mem_cons_self
    rw [List.cons_append, scan, (read_of_isWordByte first position _).2, Word.extend_ofBytes]
    simp only
    rw [others, Position.advanceAll_cons, List.append_assoc, List.singleton_append]

/-- Word bytes between words make up a word. -/
theorem scan_run (run : ∀ byte ∈ bytes, Byte.isWordByte byte = true) (nonempty : bytes ≠ [])
    (position : Position) :
    Mode.blank.scan position (bytes ++ rest) =
      (Mode.word (Word.ofBytes position bytes)).scan (position.advanceAll bytes) rest := by
  cases bytes with
  | nil => exact absurd rfl nonempty
  | cons byte bytes =>
    have first := run byte List.mem_cons_self
    have others : ∀ other ∈ bytes, Byte.isWordByte other = true :=
      fun other there => run other (List.mem_cons_of_mem _ there)
    rw [List.cons_append, scan, (read_of_isWordByte first position ⟨"", position⟩).1,
      Word.ofByte_eq_ofBytes]
    simp only
    rw [scan_word_run others, Position.advanceAll_cons, List.singleton_append]

/-- A word before a blank or the end of the source is complete. -/
theorem scan_word_of_blank (blank : ∀ byte ∈ bytes.head?, Byte.isBlank byte = true)
    (position : Position) (unfinished : Word) :
    (Mode.word unfinished).scan position bytes =
      unfinished :: Mode.blank.scan position bytes := by
  cases bytes with
  | nil => rfl
  | cons byte bytes =>
    have first := blank byte rfl
    obtain ⟨passed, completed⟩ := read_of_isBlank first position unfinished
    rw [scan, scan, completed, passed]

end Mode

namespace Word.LaidFrom

variable {position earlier : Position} {word : Word} {words : List Word}

/-- Words that stand behind a position stand behind any earlier one. -/
theorem of_notAfter (laid : LaidFrom position words) (early : earlier.NotAfter position) :
    LaidFrom earlier words := by
  cases laid with
  | nil => exact .nil
  | cons readable late rest => exact .cons readable (early.trans late) rest

/-- The layout behind a word starts with a blank, if there is one. -/
theorem isBlank_of_head? (laid : LaidFrom word.next words) {byte : UInt8}
    (first : byte ∈ (layoutFrom word.behind words).head?) : Byte.isBlank byte = true := by
  cases laid with
  | nil => contradiction
  | @cons _ other others readable late rest =>
    have room : word.behind.gap other.position ≠ [] := Position.gap_ne_nil late
    rw [layoutFrom, List.append_assoc, List.head?_append_of_ne_nil _ room] at first
    exact Position.isBlank_of_mem_gap (List.mem_of_mem_head? first)

/-- Reading a layout gives the words back, each at its position. -/
theorem scan_layoutFrom (laid : LaidFrom position words) :
    Mode.blank.scan position (layoutFrom position words) = words := by
  induction words generalizing position with
  | nil => rfl
  | cons word words ih =>
    cases laid with
    | cons readable late rest =>
      have inline : Byte.lineFeed ∉ word.bytes := by
        intro there
        have part := readable.isWordByte there
        contradiction
      have length : word.bytes.length = word.text.length := by
        rw [bytes, List.length_map, String.length_toList]
      have early : word.behind.NotAfter word.next := .inr ⟨rfl, Nat.le_succ _⟩
      have reached : word.position.advanceAll word.bytes = word.behind := by
        rw [Position.advanceAll_of_not_mem inline, length]
        rfl
      rw [layoutFrom, List.append_assoc,
        Mode.scan_blanks fun byte there => Position.isBlank_of_mem_gap there,
        Position.advanceAll_gap late readable.counted,
        Mode.scan_run (fun byte there => readable.isWordByte there) readable.bytes_ne_nil,
        readable.ofBytes_bytes, reached,
        Mode.scan_word_of_blank fun byte first => isBlank_of_head? rest first,
        ih (rest.of_notAfter early)]

end Word.LaidFrom

/-! ## The words of a source -/

namespace Word

variable {word : Word} {position : Position} {byte : UInt8}

/-- A word byte at a position that can be counted is a word that can be read. -/
theorem readable_ofByte (part : Byte.isWordByte byte = true) (counted : position.Counted) :
    (ofByte position byte).Readable where
  nonempty := by simp [ofByte]
  holds := by
    intro character there
    have same : character = Byte.toChar byte := by simpa [ofByte] using there
    rw [same]
    exact holds_toChar_iff.mpr part
  counted := counted

/-- A word that can be read can be read with one more word byte. -/
theorem Readable.extend (readable : word.Readable) (part : Byte.isWordByte byte = true) :
    (word.extend byte).Readable where
  nonempty := by simp [Word.extend]
  holds := by
    intro character there
    have cases : character ∈ word.text.toList ∨ character = Byte.toChar byte := by
      simpa [Word.extend] using there
    rcases cases with old | same
    · exact readable.holds character old
    · rw [same]
      exact holds_toChar_iff.mpr part
  counted := readable.counted

/-- One more byte behind a word leads past the blank that has to follow it. -/
theorem next_notAfter_advance (ends : word.behind = position) (byte : UInt8) :
    word.next.NotAfter (position.advance byte) := by
  subst ends
  unfold Position.NotAfter Position.advance next behind
  split <;> simp

end Word

/-- What a mode holds at a position was read since an earlier position. -/
inductive Mode.Since (earlier position : Position) : Mode → Prop
  /-- Between words nothing is held. -/
  | blank (late : earlier.NotAfter position) : Since earlier position .blank
  /-- A word that may still grow ends at the position. -/
  | word {unfinished : Word} (readable : unfinished.Readable)
      (late : earlier.NotAfter unfinished.position) (ends : unfinished.behind = position) :
      Since earlier position (.word unfinished)
  /-- A comment may hold nothing. -/
  | comment (late : earlier.NotAfter position) : Since earlier position (.comment none)
  /-- A word that a comment has cut short is followed by the comment mark at least. -/
  | held {cut : Word} (readable : cut.Readable) (late : earlier.NotAfter cut.position)
      (past : cut.next.NotAfter position) : Since earlier position (.comment (some cut))

namespace Mode.Since

variable {earlier position : Position} {mode : Mode}

/-- A byte leads from a mode to one that holds what was read since the same position, or it
completes a word and leads past the blank behind it. -/
theorem read (since : Since earlier position mode) (counted : position.Counted) (byte : UInt8) :
    (∃ later, mode.read position byte = .onward later ∧
        Since earlier (position.advance byte) later) ∨
      ∃ found, mode.read position byte = .complete found ∧ found.Readable ∧
        earlier.NotAfter found.position ∧ found.next.NotAfter (position.advance byte) := by
  cases since with
  | blank late =>
    by_cases opens : Byte.opensComment byte = true
    · exact .inl ⟨.comment none, by simp [Mode.read, opens], .comment (late.advance byte)⟩
    · by_cases blank : Byte.isBlank byte = true
      · exact .inl ⟨.blank, by simp [Mode.read, opens, blank], .blank (late.advance byte)⟩
      · have part : Byte.isWordByte byte = true := by simp [Byte.isWordByte, opens, blank]
        have other : byte ≠ Byte.lineFeed := by
          rintro rfl
          contradiction
        refine .inl ⟨.word (Word.ofByte position byte), by simp [Mode.read, opens, blank],
          .word (Word.readable_ofByte part counted) late ?_⟩
        rw [Position.advance_of_ne other]
        simp [Word.behind, Word.ofByte]
  | @word unfinished readable late ends =>
    have past := Word.next_notAfter_advance ends byte
    by_cases opens : Byte.opensComment byte = true
    · exact .inl ⟨.comment (some unfinished), by simp [Mode.read, opens],
        .held readable late past⟩
    · by_cases blank : Byte.isBlank byte = true
      · exact .inr ⟨unfinished, by simp [Mode.read, opens, blank], readable, late, past⟩
      · have part : Byte.isWordByte byte = true := by simp [Byte.isWordByte, opens, blank]
        have other : byte ≠ Byte.lineFeed := by
          rintro rfl
          contradiction
        refine .inl ⟨.word (unfinished.extend byte), by simp [Mode.read, opens, blank],
          .word (readable.extend part) late ?_⟩
        rw [Position.advance_of_ne other, ← ends]
        simp [Word.behind, Word.extend, Nat.add_assoc]
  | comment late =>
    by_cases ends : byte = Byte.lineFeed
    · exact .inl ⟨.blank, by simp [Mode.read, ends], .blank (late.advance byte)⟩
    · exact .inl ⟨.comment none, by simp [Mode.read, ends], .comment (late.advance byte)⟩
  | @held cut readable late past =>
    by_cases ends : byte = Byte.lineFeed
    · exact .inr ⟨cut, by simp [Mode.read, ends], readable, late, past.advance byte⟩
    · exact .inl ⟨.comment (some cut), by simp [Mode.read, ends],
        .held readable late (past.advance byte)⟩

/-- A scan finds words that stand one behind the other. -/
theorem laidFrom_scan (since : Since earlier position mode) (counted : position.Counted)
    (bytes : List UInt8) : Word.LaidFrom earlier (mode.scan position bytes) := by
  induction bytes generalizing earlier position mode with
  | nil =>
    cases since with
    | blank late => exact .nil
    | word readable late ends => exact .cons readable late .nil
    | comment late => exact .nil
    | held readable late past => exact .cons readable late .nil
  | cons byte bytes ih =>
    have onward := counted.advance byte
    rw [Mode.scan]
    rcases since.read counted byte with
      ⟨later, read, since⟩ | ⟨found, read, readable, late, past⟩
    · rw [read]
      exact ih since onward
    · rw [read]
      exact .cons readable late (ih (.blank past) onward)

end Mode.Since

namespace Word

variable {position : Position} {words : List Word}

/-- Words that stand one behind the other can be read from one source. -/
theorem LaidFrom.allReadable (laid : LaidFrom position words) : AllReadable words := by
  induction laid with
  | nil => exact ⟨by simp, .nil⟩
  | @cons position word words readable late rest ih =>
    refine ⟨List.forall_mem_cons.mpr ⟨readable, ih.each⟩, ?_⟩
    cases rest with
    | nil => exact .singleton word
    | cons other later others => exact .cons_cons later ih.ordered

/-- Words that can be read from one source stand one behind the other, from any position on that
does not come after the first of them. -/
theorem AllReadable.laidFrom (all : AllReadable words)
    (late : ∀ first ∈ words.head?, position.NotAfter first.position) :
    LaidFrom position words := by
  induction words generalizing position with
  | nil => exact .nil
  | cons word words ih =>
    have others : AllReadable words :=
      ⟨fun other there => all.each other (List.mem_cons_of_mem _ there), all.ordered.tail⟩
    refine .cons (all.each word List.mem_cons_self) (late word rfl) (ih others ?_)
    intro other first
    exact all.ordered.rel_head? first

/-- A layout is made of line feeds, spaces and the bytes of its words. -/
theorem mem_layoutFrom (each : ∀ word ∈ words, word.Readable) {byte : UInt8}
    (there : byte ∈ layoutFrom position words) :
    byte = Byte.lineFeed ∨ byte = 32 ∨ Byte.isWordByte byte = true := by
  induction words generalizing position with
  | nil => contradiction
  | cons word words ih =>
    rw [layoutFrom, List.mem_append, List.mem_append] at there
    rcases there with (gap | part) | rest
    · rcases Position.eq_of_mem_gap gap with feed | space
      · exact .inl feed
      · exact .inr (.inl space)
    · exact .inr (.inr ((each word List.mem_cons_self).isWordByte part))
    · exact ih (fun other there => each other (List.mem_cons_of_mem _ there)) rest

/-- The words of a source can each be read on their own and be followed by the next one. -/
theorem allReadable_allOfBytes (source : List UInt8) : AllReadable (allOfBytes source) := by
  have counted : Position.start.Counted := ⟨Nat.le_refl 1, Nat.le_refl 1⟩
  have since : Mode.Since Position.start Position.start .blank := .blank (.refl _)
  rw [allOfBytes_eq_scan]
  exact (since.laidFrom_scan counted source).allReadable

/-- Words that can be read from one source are read from their layout. -/
theorem AllReadable.allOfBytes_layout (all : AllReadable words) :
    allOfBytes (layout words) = words := by
  have late : ∀ first ∈ words.head?, Position.start.NotAfter first.position := by
    intro first there
    exact (all.each first (List.mem_of_mem_head? there)).counted.start_notAfter
  rw [allOfBytes_eq_scan, layout, (all.laidFrom late).scan_layoutFrom]

/-- The lists of words that can be read from a source are those whose words can each be read on
their own and can each be followed by the next one. Such a list is read from its layout, which
holds line feeds, spaces and word bytes, and so no comments. -/
theorem readable_iff_layout (words : List Word) :
    ((∃ source, allOfBytes source = words) ↔ AllReadable words) ∧
    (AllReadable words → allOfBytes (layout words) = words ∧
      ∀ byte ∈ layout words, byte = Byte.lineFeed ∨ byte = 32 ∨ Byte.isWordByte byte = true) := by
  refine ⟨⟨?_, ?_⟩, ?_⟩
  · rintro ⟨source, rfl⟩
    exact allReadable_allOfBytes source
  · intro all
    exact ⟨layout words, all.allOfBytes_layout⟩
  · intro all
    exact ⟨all.allOfBytes_layout, fun byte there => mem_layoutFrom all.each there⟩

/-- Words in two lines, the first two with one blank between them and one of them not in ASCII. -/
def scatteredWords : List Word :=
  [⟨"é", ⟨1, 3⟩⟩, ⟨"\x00", ⟨1, 5⟩⟩, ⟨".s", ⟨4, 2⟩⟩]

/-- The words are read from their layout. -/
theorem readable_iff_layout_scattered :
    layout scatteredWords = [32, 32, 233, 32, 0, 10, 10, 10, 32, 46, 115] ∧
      allOfBytes [32, 32, 233, 32, 0, 10, 10, 10, 32, 46, 115] = scatteredWords := by
  have all : AllReadable scatteredWords := by decide
  have layout : layout scatteredWords = [32, 32, 233, 32, 0, 10, 10, 10, 32, 46, 115] := by decide
  refine ⟨layout, ?_⟩
  rw [← layout]
  exact ((readable_iff_layout scatteredWords).2 all).1

end Word

end ForthAsm
