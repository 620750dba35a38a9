import ForthAsm.Proofs.Layout
import ForthAsm.Proofs.Results
import ForthAsm.Proofs.Tokens

/-!
# A source that breaks off

When the reader fails, the words that were complete have been handed out and a word that may still
grow is dropped. A word is complete once a blank stands behind it. A word that a comment mark has
cut short is complete as well, but it is held until the comment is over, and if the reader fails
before that, the word is dropped with the comment. There is at most one such word, and it is the
last one that was ended.

Main statements: `Source.pass_eq_releasedWords`, which words the bytes of a source hand out is told
by what stands behind the words, and `Stream.failure_exact`, what is handed out before a failure.
-/

namespace ForthAsm

namespace Source

/-- The places where the words of a source start, in order. -/
def starts (source : List UInt8) : List Nat :=
  (List.range source.length).filter (startsWord source)

/-- Whether the word that starts at a place is ended in the source, by a blank or by a comment
mark. -/
def isEnded (source : List UInt8) (place : Nat) : Bool :=
  source[wordEnd source place]?.any fun byte => dividers.contains byte || openers.contains byte

/-- Whether the word that starts at a place is cut short by a comment that the source does not
end. -/
def isHeld (source : List UInt8) (place : Nat) : Bool :=
  source[wordEnd source place]?.any openers.contains &&
    !(source.drop (wordEnd source place)).contains 10

/-- Whether the word that starts at a place is ended in the source and not held. -/
def isReleased (source : List UInt8) (place : Nat) : Bool :=
  isEnded source place && !isHeld source place

/-- The words that are ended in a source. -/
def endedWords (source : List UInt8) : List Word :=
  ((starts source).filter (isEnded source)).map (wordAt source)

/-- The words that are ended in a source and not held. -/
def releasedWords (source : List UInt8) : List Word :=
  ((starts source).filter (isReleased source)).map (wordAt source)

end Source

/-- Whether some bytes hand out the word that a mode holds. A line feed among them always does, and
so does a blank behind a word that may still grow. -/
def Mode.releases (left : List UInt8) : Mode → Bool
  | blank => true
  | word _ =>
    (left.dropWhile Byte.isWordByte).head?.any Byte.isBlank ||
      (left.dropWhile Byte.isWordByte).contains Byte.lineFeed
  | comment _ => left.contains Byte.lineFeed

namespace Mode

variable {mode later : Mode} {position : Position} {byte : UInt8}

/-- A byte that completes no word leaves it to the others whether the word is handed out. -/
theorem releases_of_onward (read : mode.read position byte = .onward later)
    (holding : mode ≠ .blank) (left : List UInt8) :
    later.releases left = mode.releases (byte :: left) := by
  cases mode with
  | blank => exact absurd rfl holding
  | word unfinished =>
    by_cases opens : Byte.opensComment byte = true
    · have solid := Byte.isBlank_eq_false_of_opensComment opens
      have outside : Byte.isWordByte byte = false := by simp [Byte.isWordByte, opens]
      have other : byte ≠ Byte.lineFeed := by
        rintro rfl
        contradiction
      have next : later = .comment (some unfinished) := by simpa [Mode.read, opens] using read.symm
      simp [next, releases, outside, solid, Ne.symm other]
    · by_cases blank : Byte.isBlank byte = true
      · simp [Mode.read, opens, blank] at read
      · have inside : Byte.isWordByte byte = true := by simp [Byte.isWordByte, opens, blank]
        have next : later = .word (unfinished.extend byte) := by
          simpa [Mode.read, opens, blank] using read.symm
        simp [next, releases, inside]
  | comment held =>
    by_cases ends : byte = Byte.lineFeed
    · cases held with
      | none =>
        have next : later = .blank := by simpa [Mode.read, ends] using read.symm
        simp [next, releases, ends]
      | some cut => simp [Mode.read, ends] at read
    · have next : later = .comment held := by simpa [Mode.read, ends] using read.symm
      simp [next, releases, Ne.symm ends]

/-- A byte that completes a word hands it out. -/
theorem releases_of_complete {found : Word} (read : mode.read position byte = .complete found)
    (left : List UInt8) : mode.releases (byte :: left) = true := by
  cases mode with
  | blank => rfl
  | word unfinished =>
    by_cases opens : Byte.opensComment byte = true
    · simp [Mode.read, opens] at read
    · by_cases blank : Byte.isBlank byte = true
      · have outside : Byte.isWordByte byte = false := by simp [Byte.isWordByte, blank]
        simp [releases, outside, blank]
      · simp [Mode.read, opens, blank] at read
  | comment held =>
    by_cases ends : byte = Byte.lineFeed
    · simp [releases, ends]
    · simp [Mode.read, ends] at read

end Mode

namespace Source

variable {source : List UInt8} {place other : Nat} {byte : UInt8}

/-- From a place on stand the byte at it and the bytes behind it. -/
theorem drop_eq_cons (found : source[place]? = some byte) :
    source.drop place = byte :: source.drop (place + 1) := by
  obtain ⟨early, same⟩ := List.getElem?_eq_some_iff.mp found
  rw [List.drop_eq_getElem_cons early, same]

/-- Outside comments the bytes alone decide how far a word goes. -/
theorem length_takeWhile_inWord (outside : commentOpen source place = false) :
    ((List.range' place (source.length - place)).takeWhile (inWord source)).length =
      ((source.drop place).takeWhile Byte.isWordByte).length := by
  -- The induction is on the number of bytes that are left.
  induction left : source.length - place generalizing place with
  | zero =>
    rw [List.drop_eq_nil_of_le (by omega)]
    rfl
  | succ count ih =>
    have early : place < source.length := by omega
    obtain ⟨inside, openNext⟩ := of_outside (List.getElem?_eq_getElem early) outside
    rw [List.range'_succ, List.drop_eq_getElem_cons early, List.takeWhile_cons,
      List.takeWhile_cons, inside]
    by_cases part : Byte.isWordByte source[place] = true
    · have plain : Byte.opensComment source[place] = false := by
        simp only [Byte.isWordByte, Bool.and_eq_true, Bool.not_eq_true'] at part
        exact part.2
      rw [if_pos part, if_pos part, List.length_cons, List.length_cons,
        ih (openNext.trans plain) (by omega)]
    · rw [if_neg part, if_neg part]
      rfl

/-- Behind a word stand the bytes from the first one on that is no word byte. -/
theorem drop_wordEnd (outside : commentOpen source place = false) :
    source.drop (wordEnd source place) = (source.drop place).dropWhile Byte.isWordByte := by
  have split : (source.drop place).takeWhile Byte.isWordByte ++
      (source.drop place).dropWhile Byte.isWordByte = source.drop place :=
    List.takeWhile_append_dropWhile
  calc source.drop (wordEnd source place)
      = (source.drop place).drop ((source.drop place).takeWhile Byte.isWordByte).length := by
        rw [wordEnd, length_takeWhile_inWord outside, List.drop_drop]
    _ = ((source.drop place).takeWhile Byte.isWordByte ++
          (source.drop place).dropWhile Byte.isWordByte).drop
            ((source.drop place).takeWhile Byte.isWordByte).length := by rw [split]
    _ = (source.drop place).dropWhile Byte.isWordByte := List.drop_left

/-- No comment is open where a word byte stands. -/
theorem commentOpen_of_inWord (inside : inWord source place = true) :
    commentOpen source place = false := by
  have early := lt_length_of_inWord inside
  rw [inWord_eq (List.getElem?_eq_getElem early), Bool.and_eq_true, Bool.not_eq_true'] at inside
  exact inside.2

/-- A word is released exactly if the bytes from its start on hand it out. -/
theorem isReleased_eq (inside : inWord source place = true) (unfinished : Word) :
    isReleased source place = (Mode.word unfinished).releases (source.drop place) := by
  have behind := drop_wordEnd (commentOpen_of_inWord inside)
  have first : source[wordEnd source place]? =
      ((source.drop place).dropWhile Byte.isWordByte).head? := by
    rw [← behind, List.head?_drop]
  rw [isReleased, isEnded, isHeld, contains_dividers, contains_openers, first, behind,
    Mode.releases]
  cases left : (source.drop place).dropWhile Byte.isWordByte with
  | nil => rfl
  | cons byte bytes =>
    have outside : Byte.isWordByte byte = false := by
      have head := List.head?_dropWhile_not Byte.isWordByte (source.drop place)
      simpa [left] using head
    by_cases opens : Byte.opensComment byte = true
    · have solid := Byte.isBlank_eq_false_of_opensComment opens
      simp [opens, solid, Byte.lineFeed]
    · have blank : Byte.isBlank byte = true := by simpa [Byte.isWordByte, opens] using outside
      simp [opens, blank]

namespace Follows

variable {mode : Mode} {pending : List Word}

/-- While a mode holds a word or stands in a comment, no word starts. -/
theorem started_of_ne_blank (follows : Follows source place mode pending)
    (found : source[place]? = some byte) (holding : mode ≠ .blank) :
    started source place = [] := by
  cases follows with
  | blank outside apart => exact absurd rfl holding
  | word begun run outside => exact started_of_run begun run
  | comment inside =>
    apply started_of_not_inWord
    apply inWord_of_inComment
    rw [inComment_eq found, inside, Bool.true_or]

/-- A byte that completes no word: what the bytes behind it hand out is what the bytes from it on
hand out, and the word that starts at it if that word is released. -/
theorem released_of_onward (follows : Follows source place mode pending)
    (found : source[place]? = some byte) {later : Mode}
    (read : mode.read (Position.behind (source.take place)) byte = .onward later) :
    (if later.releases (source.drop (place + 1)) then pending ++ started source place else []) =
      (if mode.releases (source.drop place) then pending else []) ++
        (if isReleased source place then started source place else []) := by
  have left := drop_eq_cons found
  by_cases between : mode = .blank
  · subst between
    cases follows with
    | blank outside apart =>
      by_cases starting : startsWord source place = true
      · -- The word that starts here is released if the mode that it leads to releases it.
        have inside : inWord source place = true := by
          rw [startsWord, Bool.and_eq_true] at starting
          exact starting.1
        have part : Byte.isWordByte byte = true := by
          rw [← (of_outside found outside).1, inside]
        have next : later = .word (Word.ofByte (Position.behind (source.take place)) byte) := by
          rw [(Mode.read_of_isWordByte part _ ⟨"", Position.start⟩).1] at read
          exact (Progress.onward.inj read).symm
        have released := isReleased_eq inside
          (Word.ofByte (Position.behind (source.take place)) byte)
        rw [left] at released
        rw [released, next]
        simp [Mode.releases, part]
      · simp [started, starting]
  · rw [follows.started_of_ne_blank found between, List.append_nil,
      Mode.releases_of_onward read between, ← left]
    simp

/-- A byte that completes a word hands out what the mode held. -/
theorem released_of_complete (follows : Follows source place mode pending)
    (found : source[place]? = some byte) {word : Word}
    (read : mode.read (Position.behind (source.take place)) byte = .complete word)
    (whole : pending ++ started source place = [word]) :
    (if mode.releases (source.drop place) then pending else []) ++
      (if isReleased source place then started source place else []) = [word] := by
  have left := drop_eq_cons found
  have holding : mode ≠ .blank := by
    rintro rfl
    simp only [Mode.read] at read
    split at read
    · contradiction
    · split at read <;> contradiction
  have none := follows.started_of_ne_blank found holding
  rw [none, List.append_nil] at whole
  rw [left, Mode.releases_of_complete read, none, whole]
  simp

/-- From a place on the bytes hand out the word that a mode holds, if they release it, and the
released words that start there or later. -/
theorem pass_eq (follows : Follows source place mode pending) (bound : place ≤ source.length) :
    (mode.pass (Position.behind (source.take place)) (source.drop place)).1 =
      (if mode.releases (source.drop place) then pending else []) ++
        (((List.range' place (source.length - place)).filter (startsWord source)).filter
          (isReleased source)).map (wordAt source) := by
  -- The induction is on the number of bytes that are left.
  induction left : source.length - place generalizing place mode pending with
  | zero =>
    have ended : place = source.length := by omega
    subst ended
    cases follows with
    | blank outside apart => simp [Mode.pass]
    | word begun run outside => simp [Mode.pass, Mode.releases]
    | comment inside => simp [Mode.pass, Mode.releases]
  | succ count ih =>
    have inside : place < source.length := by omega
    have found := List.getElem?_eq_getElem inside
    have first : (((List.range' place (count + 1)).filter (startsWord source)).filter
        (isReleased source)).map (wordAt source) =
          (if isReleased source place then started source place else []) ++
            (((List.range' (place + 1) count).filter (startsWord source)).filter
              (isReleased source)).map (wordAt source) := by
      rw [List.range'_succ, List.filter_cons, started]
      by_cases starting : startsWord source place = true
      · rw [if_pos starting, if_pos starting, List.filter_cons]
        split <;> rfl
      · rw [if_neg starting, if_neg starting, ite_self, List.nil_append]
    have later : Position.behind (source.take (place + 1)) =
        (Position.behind (source.take place)).advance source[place] := by
      rw [← Position.behind_concat, List.take_add_one, found, Option.toList_some]
    have bytes := drop_eq_cons found
    rw [first, ← List.append_assoc]
    rcases follows.read found with ⟨next, read, onward⟩ | ⟨word, read, whole, onward⟩
    · rw [← follows.released_of_onward found read, bytes, Mode.pass, read, ← later]
      exact ih onward (by omega) (by omega)
    · rw [follows.released_of_complete found read whole, bytes, Mode.pass, read, ← later]
      have others := ih onward (by omega) (by omega)
      rw [ite_self, List.nil_append] at others
      simp only [others, List.singleton_append]

end Follows

/-- The words that the bytes of a source hand out are those that are ended in it and not held. -/
theorem pass_eq_releasedWords (source : List UInt8) :
    (Mode.blank.pass Position.start source).1 = releasedWords source := by
  have start : Follows source 0 .blank [] := .blank rfl (.inl rfl)
  have whole := start.pass_eq (Nat.zero_le source.length)
  rw [ite_self, List.nil_append, Nat.sub_zero, ← List.range_eq_range'] at whole
  exact whole

/-- Up to its end a word is made of word bytes. -/
theorem inWord_of_lt_wordEnd (late : place ≤ other) (early : other < wordEnd source place) :
    inWord source other = true := by
  rw [wordEnd] at early
  have index : other - place <
      ((List.range' place (source.length - place)).takeWhile (inWord source)).length := by
    omega
  have there := List.getElem_mem index
  have same : ((List.range' place (source.length - place)).takeWhile
      (inWord source))[other - place] = other := by
    rw [(List.takeWhile_prefix (inWord source)).getElem index, List.getElem_range']
    omega
  rw [same] at there
  exact List.all_eq_true.mp List.all_takeWhile other there

/-- No word starts behind a word that is held. -/
theorem not_startsWord_of_isHeld (held : isHeld source place = true) (later : place < other) :
    startsWord source other = false := by
  rw [isHeld, contains_openers, Bool.and_eq_true, Bool.not_eq_true', ← Bool.not_eq_true,
    List.contains_iff_mem] at held
  obtain ⟨opens, unended⟩ := held
  by_cases early : other < wordEnd source place
  · have before : inWord source (other - 1) = true :=
      inWord_of_lt_wordEnd (show place ≤ other - 1 by omega) (by omega)
    have positive : (other == 0) = false := by simp; omega
    simp [startsWord, before, positive]
  · -- From the end of the word on everything is in the comment that the source does not end.
    have comment : inComment source other = true := by
      refine inComment_iff.mpr ⟨wordEnd source place, by omega, opens, ?_⟩
      intro there
      apply unended
      rw [List.drop_take] at there
      exact List.mem_of_mem_take there
    simp [startsWord, inWord_of_inComment comment]

/-- A word that is held is the last one. -/
theorem starts_eq_of_isHeld (there : place ∈ starts source) (held : isHeld source place = true) :
    starts source = (List.range place).filter (startsWord source) ++ [place] := by
  obtain ⟨early, starting⟩ := List.mem_filter.mp there
  rw [List.mem_range] at early
  have split : List.range source.length =
      List.range place ++ place :: List.range' (place + 1) (source.length - (place + 1)) := by
    have parts := List.range'_append_1 (s := 0) (m := place) (n := source.length - place)
    rw [Nat.zero_add, show place + (source.length - place) = source.length by omega,
      show source.length - place = source.length - (place + 1) + 1 by omega,
      List.range'_succ] at parts
    rw [List.range_eq_range', List.range_eq_range']
    exact parts.symm
  have behind : (List.range' (place + 1) (source.length - (place + 1))).filter
      (startsWord source) = [] := by
    rw [List.filter_eq_nil_iff]
    intro other inside
    have bounds := List.mem_range'_1.mp inside
    simp [not_startsWord_of_isHeld held (show place < other by omega)]
  rw [starts, split, List.filter_append, List.filter_cons, if_pos starting, behind]

/-- Of the words that are ended in a source only a word that is held is not released. -/
theorem endedWords_of_isHeld (there : place ∈ starts source) (held : isHeld source place = true) :
    endedWords source = releasedWords source ++ [wordAt source place] := by
  have ended : isEnded source place = true := by
    rw [isHeld, Bool.and_eq_true] at held
    cases found : source[wordEnd source place]? with
    | none => simp [found] at held
    | some byte =>
      have opens : openers.contains byte = true := by simpa [found] using held.1
      rw [isEnded, found, Option.any_some, opens, Bool.or_true]
  have kept : isReleased source place = false := by simp [isReleased, held]
  -- The words before the held one are not held, because no word starts behind one that is.
  have before : ((List.range place).filter (startsWord source)).filter (isReleased source) =
      ((List.range place).filter (startsWord source)).filter (isEnded source) := by
    apply List.filter_congr
    intro other inside
    have early := List.mem_range.mp (List.mem_filter.mp inside).1
    have free : isHeld source other = false := by
      cases holds : isHeld source other with
      | false => rfl
      | true =>
        have starting := (List.mem_filter.mp there).2
        rw [not_startsWord_of_isHeld holds early] at starting
        contradiction
    simp [isReleased, free]
  rw [endedWords, releasedWords, starts_eq_of_isHeld there held, List.filter_append,
    List.filter_append, before]
  simp [ended, kept]

/-- All words that are ended in a source are released if none is held. -/
theorem releasedWords_of_not_isHeld
    (free : ∀ place ∈ starts source, isHeld source place = false) :
    releasedWords source = endedWords source := by
  rw [releasedWords, endedWords]
  congr 1
  apply List.filter_congr
  intro place there
  simp [isReleased, free place there]

end Source

namespace Stream

variable {deliveries : List Delivery} {source : List UInt8}

/-- What is handed out before a failure, over all calls: the words that are ended in the source and
not held, then the failure, then nothing. So all words that are ended come before the failure
exactly if none of them is held; and if one is, then it is the last one, and the only one that is
missing. -/
theorem failure_exact (carries : Delivery.Carries deliveries source) (cause : IoFailure)
    (rest : List Delivery) :
    Word.allOfBytes source = (Source.starts source).map (Source.wordAt source) ∧
    (∀ calls, (ofDeliveries (deliveries ++ .failure cause :: rest)).result calls =
      ((Source.releasedWords source).map .ok ++ [.error cause])[calls]?) ∧
    ((∀ calls, (ofDeliveries (deliveries ++ .failure cause :: rest)).result calls =
        ((Source.endedWords source).map .ok ++ [.error cause])[calls]?) ↔
      ∀ place ∈ Source.starts source, Source.isHeld source place = false) ∧
    ∀ place ∈ Source.starts source, Source.isHeld source place = true →
      Source.endedWords source = Source.releasedWords source ++ [Source.wordAt source place] := by
  have all : (ofDeliveries (deliveries ++ .failure cause :: rest)).results =
      (Source.releasedWords source).map .ok ++ [.error cause] := by
    rw [results_ofDeliveries_append carries, Source.pass_eq_releasedWords]
    rfl
  have results : ∀ calls, (ofDeliveries (deliveries ++ .failure cause :: rest)).result calls =
      ((Source.releasedWords source).map .ok ++ [.error cause])[calls]? := by
    intro calls
    rw [result_eq_getElem?, all]
  refine ⟨Word.allOfBytes_eq_words source, results, ⟨?_, ?_⟩,
    fun place there held => Source.endedWords_of_isHeld there held⟩
  · intro complete place there
    cases held : Source.isHeld source place with
    | false => rfl
    | true =>
      -- The lists of results differ in length if a word is missing.
      have same : (Source.releasedWords source).map Except.ok ++ [Except.error cause] =
          (Source.endedWords source).map Except.ok ++ [Except.error cause] :=
        List.ext_getElem? fun calls => (results calls).symm.trans (complete calls)
      have lengths := congrArg List.length same
      rw [Source.endedWords_of_isHeld there held] at lengths
      simp at lengths
  · intro free calls
    rw [results, Source.releasedWords_of_not_isHeld free]

/-- A word that is cut short by a comment, and below it a word that is not ended. -/
def unfinishedSource : List UInt8 :=
  "1 2/x\n3 fo".toUTF8.data.toList

/-- Deliveries of the two lines, with an interruption between them. -/
def unfinishedDeliveries : List Delivery :=
  [.bytes "1 2/x".toUTF8.data.toList, .interrupted, .bytes "\n3 fo".toUTF8.data.toList]

/-- The comment is over before the failure, so the word before it is handed out, and only the word
that is not ended is dropped. -/
theorem failure_exact_unfinished :
    Source.endedWords unfinishedSource =
      [⟨"1", ⟨1, 1⟩⟩, ⟨"2", ⟨1, 3⟩⟩, ⟨"3", ⟨2, 1⟩⟩] ∧
    ∀ calls, (ofDeliveries (unfinishedDeliveries ++ .failure (.other "device gone") ::
        [.bytes "o ".toUTF8.data.toList])).result calls =
      ((Source.endedWords unfinishedSource).map .ok ++
        [.error (.other "device gone")])[calls]? := by
  have carries : Delivery.Carries unfinishedDeliveries unfinishedSource := ⟨by decide, by decide⟩
  have free : ∀ place ∈ Source.starts unfinishedSource,
      Source.isHeld unfinishedSource place = false := by decide
  obtain ⟨-, -, complete, -⟩ := failure_exact carries (.other "device gone")
    [.bytes "o ".toUTF8.data.toList]
  exact ⟨by decide, complete.mpr free⟩

/-- Bytes that cut a word short and end inside the comment. -/
def cutShort : List UInt8 :=
  "12/34".toUTF8.data.toList

/-- The word before the comment is ended, but the failure is all that is handed out. -/
theorem failure_in_comment :
    Delivery.Carries [.bytes cutShort] cutShort ∧
    Source.endedWords cutShort = [⟨"12", ⟨1, 1⟩⟩] ∧
    (ofDeliveries ([.bytes cutShort] ++ [.failure (.other "device gone")])).result 0 =
      some (.error (.other "device gone")) := by
  refine ⟨⟨by decide, by decide⟩, by decide, ?_⟩
  rfl

end Stream

end ForthAsm
