import ForthAsm.Source.Word
import ForthAsm.Source.Delivery

/-!
# The stream of words

`Stream.next` reads one word from a stream of answers. Three modes tell what the bytes read
so far amount to: nothing, a word that may still grow, or a comment. A word that a comment
cuts short is held until the comment is over and handed out then.

The end of the stream ends the source between words and inside a word. Inside a comment it
ends only the comment: a held word is handed out, and the next request goes back to the
reader. A failure ends the source in every mode, and with it an unfinished or held word.

Main statements: a word is handed out only at the price of an answer (`next_shortens`), so
`Stream.words` reads every stream to its end, and a finished stream stays as it is
(`next_of_finished`).
-/

namespace ForthAsm

/-- What the bytes read since the last word amount to. -/
inductive Mode where
  /-- Only blanks and comments were read. -/
  | blank
  /-- A word was begun and may still grow. -/
  | word (pending : Word)
  /-- A comment was opened; it may have cut short a word, which is held until it is over. -/
  | comment (held : Option Word)
  deriving DecidableEq, Repr

/-- What a byte leads to. -/
inductive Progress where
  /-- Reading goes on. -/
  | onward (mode : Mode)
  /-- A word is complete, and nothing else was read. -/
  | complete (word : Word)
  deriving DecidableEq, Repr

/-- The effect of a byte that stands at a position. -/
def Mode.read (position : Position) (byte : UInt8) : Mode → Progress
  | .blank =>
    if Byte.opensComment byte then .onward (.comment none)
    else if Byte.isBlank byte then .onward .blank
    else .onward (.word (Word.ofByte position byte))
  | .word pending =>
    if Byte.opensComment byte then .onward (.comment (some pending))
    else if Byte.isBlank byte then .complete pending
    else .onward (.word (pending.extend byte))
  | .comment held =>
    if byte = Byte.lineFeed then
      match held with
      | some cut => .complete cut
      | none => .onward .blank
    else .onward (.comment held)

/-- A source that is being read, between two words. -/
structure Stream where
  /-- Where the next byte stands. -/
  position : Position
  /-- The answers still to come; after them every request finds the end of the stream. -/
  answers : List Answer
  /-- Whether the source is over, so that no more requests are made. -/
  finished : Bool
  deriving DecidableEq, Repr

namespace Stream

/-- The stream of a list of answers, from the start of the source. -/
def ofAnswers (answers : List Answer) : Stream :=
  ⟨Position.start, answers, false⟩

/-- The stream of a list of deliveries. -/
def ofDeliveries (deliveries : List Delivery) : Stream :=
  ofAnswers (Delivery.allAnswers deliveries)

/-- The stream of a source in memory. -/
def ofBytes (bytes : List UInt8) : Stream :=
  ofAnswers (bytes.map .byte)

/-- Read on from a mode until a word is complete, the reader fails or the source is over. -/
def readFrom (mode : Mode) (position : Position) :
    List Answer → Option (Except IoFailure Word) × Stream
  | [] =>
    match mode with
    | .blank | .comment none => (none, ⟨position, [], true⟩)
    | .word pending => (some (.ok pending), ⟨position, [], true⟩)
    | .comment (some held) => (some (.ok held), ⟨position, [], false⟩)
  | .endOfStream :: later =>
    match mode with
    | .blank => (none, ⟨position, later, true⟩)
    | .word pending => (some (.ok pending), ⟨position, later, true⟩)
    | .comment (some held) => (some (.ok held), ⟨position, later, false⟩)
    | .comment none => readFrom .blank position later
  | .failure cause :: later => (some (.error cause), ⟨position, later, true⟩)
  | .byte byte :: later =>
    match mode.read position byte with
    | .onward mode => readFrom mode (position.advance byte) later
    | .complete word => (some (.ok word), ⟨position.advance byte, later, false⟩)

/-- The next word or failure of a stream, if there is one, and the stream after it. -/
def next (stream : Stream) : Option (Except IoFailure Word) × Stream :=
  if stream.finished then (none, stream)
  else readFrom .blank stream.position stream.answers

/-- A finished stream has nothing more to say and stays as it is. -/
theorem next_of_finished {stream : Stream} (finished : stream.finished = true) :
    stream.next = (none, stream) := by
  simp [next, finished]

/-- An unfinished stream is read from the blank between two words. -/
theorem next_of_unfinished {stream : Stream} (unfinished : stream.finished = false) :
    stream.next = readFrom .blank stream.position stream.answers := by
  simp [next, unfinished]

/-- Reading never adds answers. -/
theorem readFrom_length (mode : Mode) (position : Position) (answers : List Answer) :
    (readFrom mode position answers).2.answers.length ≤ answers.length := by
  fun_induction readFrom mode position answers <;> simp_all <;> omega

/-- A word or a failure read from the blank costs at least one answer. -/
theorem readFrom_blank_shortens {position : Position} {answers : List Answer}
    {result : Except IoFailure Word} {later : Stream}
    (found : readFrom .blank position answers = (some result, later)) :
    later.answers.length < answers.length := by
  cases answers with
  | nil => simp [readFrom] at found
  | cons answer answers =>
    have bound : later.answers.length ≤ answers.length := by
      cases answer with
      | endOfStream => simp [readFrom] at found
      | failure cause =>
        simp only [readFrom, Prod.mk.injEq] at found
        simp [← found.2]
      | byte byte =>
        simp only [readFrom] at found
        split at found
        · rename_i mode _
          have shorter := readFrom_length mode (position.advance byte) answers
          rwa [found] at shorter
        · simp only [Prod.mk.injEq] at found
          simp [← found.2]
    simp only [List.length_cons]
    omega

/-- A word or a failure costs at least one answer. -/
theorem next_shortens {stream later : Stream} {result : Except IoFailure Word}
    (found : stream.next = (some result, later)) :
    later.answers.length < stream.answers.length := by
  cases ended : stream.finished with
  | true => simp [next_of_finished ended] at found
  | false =>
    rw [next_of_unfinished ended] at found
    exact readFrom_blank_shortens found

/-- Read the rest of a stream after the words already found. -/
def collect (stream : Stream) (found : Array Word) : Except IoFailure (Array Word) :=
  match _result : stream.next with
  | (none, _) => .ok found
  | (some (.error cause), _) => .error cause
  | (some (.ok word), later) => collect later (found.push word)
termination_by stream.answers.length
decreasing_by exact next_shortens _result

/-- All words of a stream in source order, or the failure that ends it. -/
def words (stream : Stream) : Except IoFailure (List Word) :=
  (stream.collect #[]).map Array.toList

end Stream

/-- The words of a source in memory. Reading from memory never fails, so the list that a
failure would leave is never used. -/
def Word.allOfBytes (source : List UInt8) : List Word :=
  match (Stream.ofBytes source).words with
  | .ok words => words
  | .error _ => []

end ForthAsm
