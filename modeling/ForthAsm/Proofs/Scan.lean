import ForthAsm.Source.Stream

/-!
# Reading a source in memory

A source in memory is a list of bytes, and its words are found in one pass over them:
`Mode.scan` goes from byte to byte and never stops between two words. Handing out the words one
at a time, as a stream does, finds the same ones.

Main statement: `Word.allOfBytes_eq_scan`.
-/

namespace ForthAsm

/-- The words still to be found in some bytes, from a mode and a position on. -/
def Mode.scan (mode : Mode) (position : Position) : List UInt8 → List Word
  | [] =>
    match mode with
    | .blank => []
    | .word pending => [pending]
    | .comment held => held.toList
  | byte :: bytes =>
    match mode.read position byte with
    | .onward mode => mode.scan (position.advance byte) bytes
    | .complete found => found :: Mode.blank.scan (position.advance byte) bytes

namespace Stream

/-- What a stream of bytes that is not finished hands out next is the first word of the scan,
and the other words are still in the stream. -/
theorem readFrom_bytes (mode : Mode) (position : Position) (bytes : List UInt8) :
    (mode.scan position bytes = [] ∧
        (readFrom mode position (bytes.map .byte)).1 = none) ∨
      ∃ word later rest finished,
        readFrom mode position (bytes.map .byte) =
          (some (.ok word), ⟨later, rest.map .byte, finished⟩) ∧
        (finished = true → rest = []) ∧
        mode.scan position bytes = word :: Mode.blank.scan later rest := by
  induction bytes generalizing mode position with
  | nil =>
    cases mode with
    | blank => exact .inl ⟨rfl, rfl⟩
    | word pending => exact .inr ⟨pending, position, [], true, rfl, fun _ => rfl, rfl⟩
    | comment held =>
      cases held with
      | none => exact .inl ⟨rfl, rfl⟩
      | some cut => exact .inr ⟨cut, position, [], false, rfl, fun _ => rfl, rfl⟩
  | cons byte bytes ih =>
    rw [List.map_cons, readFrom, Mode.scan]
    cases mode.read position byte with
    | onward mode => exact ih mode (position.advance byte)
    | complete word =>
      exact .inr ⟨word, position.advance byte, bytes, false, rfl,
        fun ended => absurd ended Bool.false_ne_true, rfl⟩

/-- A stream without another word is read to its end. -/
theorem collect_of_none {stream : Stream} (ended : stream.next.1 = none) (found : Array Word) :
    stream.collect found = .ok found := by
  rw [collect]
  split
  · rfl
  · simp_all
  · simp_all

/-- A stream with another word is read on behind it. -/
theorem collect_of_word {stream later : Stream} {word : Word}
    (read : stream.next = (some (.ok word), later)) (found : Array Word) :
    stream.collect found = later.collect (found.push word) := by
  rw [collect]
  split
  · simp_all
  · simp_all
  · simp_all

/-- Reading on from the bytes that are left finds the words of the scan. -/
theorem collect_bytes (position : Position) (bytes : List UInt8) (found : Array Word) :
    collect ⟨position, bytes.map .byte, false⟩ found =
      .ok (found ++ (Mode.blank.scan position bytes).toArray) := by
  -- Each word costs a byte, so the induction is on the number of bytes.
  induction count : bytes.length using Nat.strongRecOn generalizing position bytes found with
  | ind count ih =>
    have started : (⟨position, bytes.map .byte, false⟩ : Stream).next =
        readFrom .blank position (bytes.map .byte) := next_of_unfinished rfl
    rcases readFrom_bytes .blank position bytes with
      ⟨empty, ended⟩ | ⟨word, later, rest, finished, read, last, scanned⟩
    · rw [collect_of_none (by rw [started, ended]), empty]
      simp
    · rw [collect_of_word (started.trans read), scanned]
      have shorter := readFrom_blank_shortens read
      simp only [List.length_map, count] at shorter
      cases finished with
      | false =>
        rw [ih rest.length shorter later rest (found.push word) rfl]
        simp
      | true =>
        rw [collect_of_none (by rw [next_of_finished rfl]), last rfl]
        simp [Mode.scan]

end Stream

/-- The words of a source in memory are those of a scan from its start. -/
theorem Word.allOfBytes_eq_scan (source : List UInt8) :
    allOfBytes source = Mode.blank.scan Position.start source := by
  have read : (Stream.ofBytes source).words =
      .ok (Mode.blank.scan Position.start source) := by
    rw [Stream.words, Stream.ofBytes, Stream.ofAnswers, Stream.collect_bytes]
    simp [Except.map]
  rw [allOfBytes, read]

end ForthAsm
