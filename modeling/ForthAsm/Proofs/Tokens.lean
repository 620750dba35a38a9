import ForthAsm.Proofs.Scan

/-!
# The words of a source as a whole

Which bytes of a source belong to which word can be told without reading it from its start to
its end: a byte belongs to a comment if a comment mark stands at it or before it on the same
line, the words are the maximal runs of bytes that are neither blank nor in a comment, and the
position of a word is found by counting the line feeds before it. All of this is told by the
numbers of the bytes: 10 is a line feed, 9, 13 and 32 are the other blanks, 47 and 92 the comment
marks, and a byte of a word stands for the character with its number.

Main statement: `Word.allOfBytes_eq_words`, reading a source finds exactly these words.
-/

namespace ForthAsm

/-- Where a byte stands that has some bytes before it: line feeds are counted for the line, and
bytes behind the last one for the column. -/
def Position.behind (before : List UInt8) : Position where
  line := 1 + before.count 10
  column := 1 + (before.reverse.takeWhile (· != 10)).length

/-- The position behind one more byte is the next one. -/
theorem Position.behind_concat (before : List UInt8) (byte : UInt8) :
    behind (before ++ [byte]) = (behind before).advance byte := by
  by_cases ends : byte = 10
  · subst ends
    rw [show (10 : UInt8) = Byte.lineFeed from rfl, advance_lineFeed, behind, List.count_append,
      List.reverse_append]
    simp [behind, Byte.lineFeed, Nat.add_assoc]
  · rw [advance_of_ne ends, behind, List.count_append, List.reverse_append]
    simp [behind, ends, Nat.add_assoc]

namespace Source

/-- The bytes that divide words: space, tab, carriage return and line feed. -/
def dividers : List UInt8 := [32, 9, 13, 10]

/-- The bytes that open a comment: slash and backslash. -/
def openers : List UInt8 := [47, 92]

/-- Whether a byte belongs to a comment: at its place or before it stands a comment mark, and
no line feed ends that comment before the place. A mark inside a comment changes nothing,
because the comment that it stands in is ended by the same line feed. -/
def inComment (source : List UInt8) (place : Nat) : Bool :=
  (List.range (place + 1)).any fun opening =>
    source[opening]?.any openers.contains && !((source.take place).drop opening).contains 10

/-- Whether a byte belongs to a word: it is neither blank nor in a comment. -/
def inWord (source : List UInt8) (place : Nat) : Bool :=
  source[place]?.any (fun byte => !dividers.contains byte) && !inComment source place

/-- Whether a word starts at a place. -/
def startsWord (source : List UInt8) (place : Nat) : Bool :=
  inWord source place && (place == 0 || !inWord source (place - 1))

/-- The place behind the word that starts at a place. -/
def wordEnd (source : List UInt8) (place : Nat) : Nat :=
  place + ((List.range' place (source.length - place)).takeWhile (inWord source)).length

/-- The word that starts at a place, each of its bytes as the character with the same number. -/
def wordAt (source : List UInt8) (place : Nat) : Word where
  text := String.ofList (((source.take (wordEnd source place)).drop place).map
    fun byte => Char.ofNat byte.toNat)
  position := Position.behind (source.take place)

/-- All words of a source, in order. -/
def words (source : List UInt8) : List Word :=
  ((List.range source.length).filter (startsWord source)).map (wordAt source)

/-- Whether a comment that was opened before a place has not ended there. -/
def commentOpen (source : List UInt8) (place : Nat) : Bool :=
  (List.range place).any fun opening =>
    source[opening]?.any openers.contains && !((source.take place).drop opening).contains 10

variable {source : List UInt8} {place : Nat} {byte : UInt8}

/-- The bytes that divide words are the blanks. -/
theorem contains_dividers : dividers.contains = Byte.isBlank := by
  funext byte
  rw [Bool.eq_iff_iff]
  simp [dividers, Byte.isBlank, Byte.lineFeed, or_assoc]

/-- The bytes that open a comment are the comment marks. -/
theorem contains_openers : openers.contains = Byte.opensComment := by
  funext byte
  rw [Bool.eq_iff_iff]
  simp [openers, Byte.opensComment]

/-- The word that starts at a place is made of its run of bytes. -/
theorem wordAt_eq (source : List UInt8) (place : Nat) :
    wordAt source place = Word.ofBytes (Position.behind (source.take place))
      ((source.take (wordEnd source place)).drop place) := by
  have widened : (fun byte : UInt8 => Char.ofNat byte.toNat) = Byte.toChar := by
    funext byte
    rw [← Byte.toNat_toChar, Char.ofNat_toNat]
  rw [wordAt, widened, Word.ofBytes]

/-- A comment is open if a mark before the place has no line feed behind it. -/
theorem commentOpen_iff : commentOpen source place = true ↔
    ∃ opening < place, source[opening]?.any Byte.opensComment = true ∧
      Byte.lineFeed ∉ (source.take place).drop opening := by
  simp [commentOpen, contains_openers, Byte.lineFeed]

/-- A byte is in a comment if a mark up to it has no line feed behind it. -/
theorem inComment_iff : inComment source place = true ↔
    ∃ opening < place + 1, source[opening]?.any Byte.opensComment = true ∧
      Byte.lineFeed ∉ (source.take place).drop opening := by
  simp [inComment, contains_openers, Byte.lineFeed]

/-- A byte belongs to a comment that is open already or to one that it opens. -/
theorem inComment_eq (found : source[place]? = some byte) :
    inComment source place = (commentOpen source place || Byte.opensComment byte) := by
  have empty : (source.take place).drop place = [] := by simp
  rw [inComment, List.range_succ, List.any_append, commentOpen, contains_openers]
  simp [found, empty]

/-- One more byte of a source from a place on. -/
theorem drop_take_succ {start : Nat} (found : source[place]? = some byte)
    (ordered : start ≤ place) :
    (source.take (place + 1)).drop start = (source.take place).drop start ++ [byte] := by
  have inside : place < source.length := (List.getElem?_eq_some_iff.mp found).1
  rw [List.take_add_one, found, Option.toList_some, List.drop_append_of_le_length]
  rw [List.length_take]
  omega

/-- The comment that a byte belongs to goes on unless the byte is a line feed. -/
theorem commentOpen_succ (found : source[place]? = some byte) :
    commentOpen source (place + 1) = (inComment source place && byte != Byte.lineFeed) := by
  have longer : ∀ opening < place + 1, (source.take (place + 1)).drop opening =
      (source.take place).drop opening ++ [byte] :=
    fun opening early => drop_take_succ found (Nat.le_of_lt_succ early)
  rw [Bool.eq_iff_iff, Bool.and_eq_true, commentOpen_iff, inComment_iff, bne_iff_ne]
  constructor
  · rintro ⟨opening, early, opens, unended⟩
    rw [longer opening early, List.mem_append, List.mem_singleton, not_or] at unended
    exact ⟨⟨opening, early, opens, unended.1⟩, Ne.symm unended.2⟩
  · rintro ⟨⟨opening, early, opens, unended⟩, other⟩
    refine ⟨opening, early, opens, ?_⟩
    rw [longer opening early, List.mem_append, List.mem_singleton, not_or]
    exact ⟨unended, Ne.symm other⟩

/-- A byte belongs to a word if it is neither blank nor opens a comment, and no comment is
open. -/
theorem inWord_eq (found : source[place]? = some byte) :
    inWord source place = (Byte.isWordByte byte && !commentOpen source place) := by
  rw [inWord, inComment_eq found, found, Option.any_some, contains_dividers, Byte.isWordByte,
    Bool.not_or, Bool.and_assoc, Bool.and_comm (!commentOpen source place)]

/-- Outside comments the byte alone decides whether it belongs to a word or opens a comment. -/
theorem of_outside (found : source[place]? = some byte)
    (outside : commentOpen source place = false) :
    inWord source place = Byte.isWordByte byte ∧
      commentOpen source (place + 1) = Byte.opensComment byte := by
  rw [inWord_eq found, commentOpen_succ found, inComment_eq found, outside, Bool.false_or]
  refine ⟨by simp, ?_⟩
  by_cases ends : byte = Byte.lineFeed
  · rw [ends]
    rfl
  · simp [ends]

/-- A byte in a comment belongs to no word. -/
theorem inWord_of_inComment (inside : inComment source place = true) :
    inWord source place = false := by
  simp [inWord, inside]

/-- Behind the end of a source there are no words. -/
theorem lt_length_of_inWord (inside : inWord source place = true) : place < source.length := by
  by_cases early : place < source.length
  · exact early
  · simp [inWord, List.getElem?_eq_none (Nat.le_of_not_lt early)] at inside

/-- A run of word bytes that cannot be continued is a whole word. -/
theorem wordEnd_eq {start stop : Nat} (ordered : start ≤ stop) (bound : stop ≤ source.length)
    (run : ∀ other, start ≤ other → other < stop → inWord source other = true)
    (ended : inWord source stop = false) : wordEnd source start = stop := by
  have split : List.range' start (source.length - start) =
      List.range' start (stop - start) ++ List.range' stop (source.length - stop) := by
    have parts := List.range'_append_1 (s := start) (m := stop - start) (n := source.length - stop)
    rw [show start + (stop - start) = stop by omega,
      show stop - start + (source.length - stop) = source.length - start by omega] at parts
    exact parts.symm
  have first : ∀ other ∈ List.range' start (stop - start), inWord source other = true := by
    intro other there
    have bounds := List.mem_range'_1.mp there
    exact run other bounds.1 (by omega)
  have rest : (List.range' stop (source.length - stop)).takeWhile (inWord source) = [] := by
    cases source.length - stop with
    | zero => rfl
    | succ count => rw [List.range'_succ, List.takeWhile_cons_of_neg (by simp [ended])]
  rw [wordEnd, split, List.takeWhile_append_of_pos first, rest, List.append_nil,
    List.length_range']
  omega

/-- What a mode says about the bytes before a place, and the words that it will still hand out
although they start there. -/
inductive Follows (source : List UInt8) (place : Nat) : Mode → List Word → Prop
  /-- No comment is open, and the last byte belongs to no word. -/
  | blank (outside : commentOpen source place = false)
      (apart : place = 0 ∨ inWord source (place - 1) = false) : Follows source place .blank []
  /-- All bytes from the start of a word on belong to it, and it may still grow. -/
  | word {start : Nat} (begun : start < place)
      (run : ∀ other, start ≤ other → other < place → inWord source other = true)
      (outside : commentOpen source place = false) :
      Follows source place
        (.word (Word.ofBytes (Position.behind (source.take start))
          ((source.take place).drop start))) [wordAt source start]
  /-- A comment is open, and the word that it cut short is complete. -/
  | comment {held : Option Word} (inside : commentOpen source place = true) :
      Follows source place (.comment held) held.toList

/-- The word that starts at a place, if one does. -/
def started (source : List UInt8) (place : Nat) : List Word :=
  if startsWord source place then [wordAt source place] else []

/-- No word starts at a byte that belongs to none. -/
theorem started_of_not_inWord (outside : inWord source place = false) :
    started source place = [] := by
  simp [started, startsWord, outside]

namespace Follows

variable {pending : List Word}

/-- Between words a byte opens a comment, is passed over or starts a word. -/
theorem read_blank (found : source[place]? = some byte)
    (outside : commentOpen source place = false)
    (apart : place = 0 ∨ inWord source (place - 1) = false) :
    ∃ later, Mode.blank.read (Position.behind (source.take place)) byte = .onward later ∧
      Follows source (place + 1) later (started source place) := by
  obtain ⟨inside, openNext⟩ := of_outside found outside
  by_cases opens : Byte.opensComment byte = true
  · rw [Byte.isWordByte, opens, Bool.not_true, Bool.and_false] at inside
    refine ⟨.comment none, by simp [Mode.read, opens], ?_⟩
    rw [started_of_not_inWord inside]
    exact .comment (openNext.trans opens)
  · rw [Bool.not_eq_true] at opens
    rw [opens] at openNext
    by_cases blank : Byte.isBlank byte = true
    · rw [Byte.isWordByte, blank, Bool.not_true, Bool.false_and] at inside
      refine ⟨.blank, by simp [Mode.read, opens, blank], ?_⟩
      rw [started_of_not_inWord inside]
      exact .blank openNext (.inr inside)
    · rw [Bool.not_eq_true] at blank
      rw [Byte.isWordByte, blank, opens] at inside
      have starts : started source place = [wordAt source place] := by
        rcases apart with rfl | apart
        · simp [started, startsWord, inside]
        · simp [started, startsWord, inside, apart]
      have first : (source.take (place + 1)).drop place = [byte] := by
        rw [drop_take_succ found (Nat.le_refl place)]
        simp
      refine ⟨.word (Word.ofBytes (Position.behind (source.take place))
        ((source.take (place + 1)).drop place)), ?_, ?_⟩
      · rw [first, ← Word.ofByte_eq_ofBytes]
        simp [Mode.read, opens, blank]
      · rw [starts]
        refine .word (Nat.lt_succ_self place) ?_ openNext
        intro other late early
        rw [show other = place by omega]
        exact inside

/-- A word that cannot be continued at a place is complete. -/
theorem pending_eq {start : Nat} (begun : start < place)
    (run : ∀ other, start ≤ other → other < place → inWord source other = true)
    (ended : inWord source place = false) :
    Word.ofBytes (Position.behind (source.take start)) ((source.take place).drop start) =
      wordAt source start := by
  have bound : place - 1 < source.length :=
    lt_length_of_inWord (run (place - 1) (by omega) (by omega))
  rw [wordAt_eq, wordEnd_eq (Nat.le_of_lt begun) (by omega) run ended]

/-- In a word a byte cuts the word short, ends it or continues it. -/
theorem read_word {start : Nat} (found : source[place]? = some byte) (begun : start < place)
    (run : ∀ other, start ≤ other → other < place → inWord source other = true)
    (outside : commentOpen source place = false) :
    (∃ later, (Mode.word (Word.ofBytes (Position.behind (source.take start))
        ((source.take place).drop start))).read (Position.behind (source.take place)) byte =
          .onward later ∧ Follows source (place + 1) later [wordAt source start]) ∨
      ((Mode.word (Word.ofBytes (Position.behind (source.take start))
        ((source.take place).drop start))).read (Position.behind (source.take place)) byte =
          .complete (wordAt source start) ∧ Follows source (place + 1) .blank []) := by
  obtain ⟨inside, openNext⟩ := of_outside found outside
  by_cases opens : Byte.opensComment byte = true
  · rw [Byte.isWordByte, opens, Bool.not_true, Bool.and_false] at inside
    rw [pending_eq begun run inside]
    refine .inl ⟨.comment (some (wordAt source start)), by simp [Mode.read, opens], ?_⟩
    exact .comment (openNext.trans opens)
  · rw [Bool.not_eq_true] at opens
    rw [opens] at openNext
    by_cases blank : Byte.isBlank byte = true
    · rw [Byte.isWordByte, blank, Bool.not_true, Bool.false_and] at inside
      rw [pending_eq begun run inside]
      exact .inr ⟨by simp [Mode.read, opens, blank], .blank openNext (.inr inside)⟩
    · rw [Bool.not_eq_true] at blank
      rw [Byte.isWordByte, blank, opens] at inside
      refine .inl ⟨.word (Word.ofBytes (Position.behind (source.take start))
        ((source.take (place + 1)).drop start)), ?_, ?_⟩
      · rw [drop_take_succ found (Nat.le_of_lt begun), ← Word.extend_ofBytes]
        simp [Mode.read, opens, blank]
      · refine .word (Nat.lt_succ_of_lt begun) ?_ openNext
        intro other late early
        by_cases last : other = place
        · rw [last]
          exact inside
        · exact run other late (by omega)

/-- In a comment a line feed ends the comment, and every other byte belongs to it. -/
theorem read_comment (held : Option Word) (position : Position)
    (found : source[place]? = some byte) (inside : commentOpen source place = true) :
    (∃ later, (Mode.comment held).read position byte = .onward later ∧
        Follows source (place + 1) later held.toList) ∨
      ∃ word, (Mode.comment held).read position byte = .complete word ∧ held = some word ∧
        Follows source (place + 1) .blank [] := by
  have comment := inComment_eq found
  have openNext := commentOpen_succ found
  rw [inside, Bool.true_or] at comment
  rw [comment, Bool.true_and] at openNext
  have apart := inWord_of_inComment comment
  by_cases ends : byte = Byte.lineFeed
  · have outside : commentOpen source (place + 1) = false := by simp [openNext, ends]
    cases held with
    | none => exact .inl ⟨.blank, by simp [Mode.read, ends], .blank outside (.inr apart)⟩
    | some word =>
      exact .inr ⟨word, by simp [Mode.read, ends], rfl, .blank outside (.inr apart)⟩
  · exact .inl ⟨.comment held, by simp [Mode.read, ends], .comment (by simp [openNext, ends])⟩

/-- No further word starts inside a word. -/
theorem started_of_run {start : Nat} (begun : start < place)
    (run : ∀ other, start ≤ other → other < place → inWord source other = true) :
    started source place = [] := by
  have before : inWord source (place - 1) = true := run (place - 1) (by omega) (by omega)
  have late : (place == 0) = false := by simp; omega
  simp [started, startsWord, before, late]

/-- A byte leads from a mode to the next one, and a word that starts at it will be handed out
later; or it completes a word and starts none. -/
theorem read {mode : Mode} (follows : Follows source place mode pending)
    (found : source[place]? = some byte) :
    (∃ later, mode.read (Position.behind (source.take place)) byte = .onward later ∧
        Follows source (place + 1) later (pending ++ started source place)) ∨
      ∃ word, mode.read (Position.behind (source.take place)) byte = .complete word ∧
        pending ++ started source place = [word] ∧ Follows source (place + 1) .blank [] := by
  cases follows with
  | blank outside apart => exact .inl (read_blank found outside apart)
  | word begun run outside =>
    rw [started_of_run begun run, List.append_nil]
    rcases read_word found begun run outside with onward | ⟨complete, next⟩
    · exact .inl onward
    · exact .inr ⟨_, complete, rfl, next⟩
  | @comment held inside =>
    have none : inWord source place = false := by
      apply inWord_of_inComment
      rw [inComment_eq found, inside, Bool.true_or]
    rw [started_of_not_inWord none, List.append_nil]
    rcases read_comment held _ found inside with onward | ⟨word, complete, rfl, next⟩
    · exact .inl onward
    · exact .inr ⟨word, complete, rfl, next⟩

/-- At the end of a source a mode hands out what it has left. -/
theorem scan_nil {mode : Mode} (follows : Follows source source.length mode pending)
    (position : Position) : mode.scan position [] = pending := by
  have ended : inWord source source.length = false := by simp [inWord]
  cases follows with
  | blank outside apart => rfl
  | word begun run outside => rw [Mode.scan, pending_eq begun run ended]
  | comment inside => rfl

/-- From a place on a mode finds what it has left and the words that start there or later. -/
theorem scan_eq {mode : Mode} (follows : Follows source place mode pending)
    (bound : place ≤ source.length) :
    mode.scan (Position.behind (source.take place)) (source.drop place) =
      pending ++ ((List.range' place (source.length - place)).filter (startsWord source)).map
        (wordAt source) := by
  -- The induction is on the number of bytes that are left.
  induction left : source.length - place generalizing place mode pending with
  | zero =>
    have ended : place = source.length := by omega
    subst ended
    simp [follows.scan_nil]
  | succ count ih =>
    have inside : place < source.length := by omega
    have found := List.getElem?_eq_getElem inside
    have first : ((List.range' place (count + 1)).filter (startsWord source)).map
        (wordAt source) = started source place ++
          ((List.range' (place + 1) count).filter (startsWord source)).map (wordAt source) := by
      rw [List.range'_succ, List.filter_cons, started]
      split <;> rfl
    have later : Position.behind (source.take (place + 1)) =
        (Position.behind (source.take place)).advance source[place] := by
      rw [← Position.behind_concat, List.take_add_one, found, Option.toList_some]
    rw [List.drop_eq_getElem_cons inside, Mode.scan, first, ← List.append_assoc]
    rcases follows.read found with ⟨next, read, follows⟩ | ⟨word, read, complete, follows⟩
    · rw [read, ← later]
      exact ih follows (by omega) (by omega)
    · rw [read, ← later, complete]
      simp only [List.singleton_append, List.cons.injEq, true_and]
      exact ih follows (by omega) (by omega)

end Follows

end Source

/-- Reading a source finds the words of the source as a whole, each at its position. -/
theorem Word.allOfBytes_eq_words (source : List UInt8) :
    allOfBytes source = Source.words source := by
  have start : Source.Follows source 0 .blank [] := .blank rfl (.inl rfl)
  rw [allOfBytes_eq_scan, Source.words, List.range_eq_range']
  exact start.scan_eq (Nat.zero_le source.length)

/-- A source with all blanks, both comment marks, a word that a comment cuts short, a mark inside a
comment, a byte beyond ASCII and a comment that the source ends in. -/
def Source.mixed : List UInt8 :=
  "12\tdup".toUTF8.data.toList ++ [0xe9] ++ "\r\n .s/ x \\ y\n\\\n  * \\ 7".toUTF8.data.toList

/-- The words of the source, with their characters and positions. -/
theorem Word.allOfBytes_mixed :
    allOfBytes Source.mixed =
      [⟨"12", ⟨1, 1⟩⟩, ⟨"dup\u00e9", ⟨1, 4⟩⟩, ⟨".s", ⟨2, 2⟩⟩, ⟨"*", ⟨4, 3⟩⟩] := by
  rw [allOfBytes_eq_words]
  decide

end ForthAsm
