import ForthAsm.Proofs.Scan

/-!
# Sources as they are delivered

A source can be cut into deliveries in any way, with interruptions anywhere; the words found are
those of the source in memory. A word or a comment may be cut as well: the mode carries it from
one delivery to the next. Ends of the stream behind the source change nothing, also where the
first of them only ends a comment. A failure behind the source is all that is left of it, because
the words are handed on only when all of them have been read.

Main statements: `Stream.words_of_carries` and `Stream.words_of_failure`, what reading a delivered
source gives.
-/

namespace ForthAsm

/-- The words that some bytes complete from a mode on, and the mode that they lead to. -/
def Mode.pass (mode : Mode) (position : Position) : List UInt8 → List Word × Mode
  | [] => ([], mode)
  | byte :: bytes =>
    match mode.read position byte with
    | .onward later => later.pass (position.advance byte) bytes
    | .complete found =>
      (found :: (Mode.blank.pass (position.advance byte) bytes).1,
        (Mode.blank.pass (position.advance byte) bytes).2)

/-- The words that a mode still holds when the source ends. -/
def Mode.pending : Mode → List Word
  | blank => []
  | word unfinished => [unfinished]
  | comment held => held.toList

/-- A scan finds the words that the bytes complete and then those that are still held. -/
theorem Mode.scan_eq_pass (mode : Mode) (position : Position) (bytes : List UInt8) :
    mode.scan position bytes =
      (mode.pass position bytes).1 ++ (mode.pass position bytes).2.pending := by
  induction bytes generalizing mode position with
  | nil => cases mode <;> rfl
  | cons byte bytes ih =>
    rw [scan, pass]
    cases mode.read position byte with
    | onward later => exact ih later (position.advance byte)
    | complete found => simp only [ih, List.cons_append]

namespace Stream

/-- What reading a stream to its end gives once it has answered: the words found before, and
those that are still to come. -/
def gather (found : Array Word) :
    Option (Except IoFailure Word) × Stream → Except IoFailure (Array Word)
  | (none, _) => .ok found
  | (some (.error cause), _) => .error cause
  | (some (.ok word), later) => later.collect (found.push word)

/-- A stream is read to its end by asking it and going on with its answer. -/
theorem collect_eq_gather (stream : Stream) (found : Array Word) :
    stream.collect found = gather found stream.next := by
  rw [collect]
  split <;> rename_i answered <;> rw [answered, gather]

/-- An unfinished stream is read to its end from a blank. -/
theorem collect_of_unfinished (position : Position) (answers : List Answer)
    (found : Array Word) :
    collect ⟨position, answers, false⟩ found = gather found (readFrom .blank position answers) := by
  rw [collect_eq_gather, next_of_unfinished rfl]

/-- Bytes add the words that they complete, and reading goes on behind them in the mode that they
lead to. -/
theorem gather_readFrom_bytes (mode : Mode) (position : Position) (bytes : List UInt8)
    (later : List Answer) (found : Array Word) :
    gather found (readFrom mode position (bytes.map .byte ++ later)) =
      gather (found ++ (mode.pass position bytes).1.toArray)
        (readFrom (mode.pass position bytes).2 (position.advanceAll bytes) later) := by
  induction bytes generalizing mode position found with
  | nil => simp [Mode.pass]
  | cons byte bytes ih =>
    rw [List.map_cons, List.cons_append, readFrom, Mode.pass, Position.advanceAll_cons]
    cases mode.read position byte with
    | onward next => exact ih next (position.advance byte) found
    | complete word =>
      have rest := ih .blank (position.advance byte) (found.push word)
      rw [← collect_of_unfinished] at rest
      simpa [gather] using rest

/-- However often the end of the stream is answered, the words that are still held are handed
out and nothing else. -/
theorem gather_readFrom_ends (mode : Mode) (position : Position) (count : Nat)
    (found : Array Word) :
    gather found (readFrom mode position (List.replicate count .endOfStream)) =
      .ok (found ++ mode.pending.toArray) := by
  have finished : ∀ answers (words : Array Word),
      collect ⟨position, answers, true⟩ words = .ok words :=
    fun answers words => collect_of_none (by rw [next_of_finished rfl]) words
  induction count generalizing mode found with
  | zero =>
    cases mode with
    | blank => simp [readFrom, gather, Mode.pending]
    | word unfinished => simp [readFrom, gather, Mode.pending, finished]
    | comment held =>
      cases held with
      | none => simp [readFrom, gather, Mode.pending]
      | some cut => simp [readFrom, gather, Mode.pending, collect_of_unfinished]
  | succ count ih =>
    rw [List.replicate_succ]
    cases mode with
    | blank => simp [readFrom, gather, Mode.pending]
    | word unfinished => simp [readFrom, gather, Mode.pending, finished]
    | comment held =>
      -- The end of the stream ends only the comment, and the reader is asked again.
      cases held with
      | none => exact ih .blank found
      | some cut =>
        have rest := ih .blank (found.push cut)
        rw [← collect_of_unfinished] at rest
        simpa [readFrom, gather, Mode.pending] using rest

end Stream

namespace Delivery

/-- Whether a delivery hands over a part of a source, or nothing because of an interruption. -/
def isPart : Delivery → Bool
  | bytes content => !content.isEmpty
  | interrupted => true
  | endOfStream => false
  | failure _ => false

/-- Whether a delivery says that there is nothing more, or nothing because of an interruption. -/
def isEnd : Delivery → Bool
  | bytes content => content.isEmpty
  | interrupted => true
  | endOfStream => true
  | failure _ => false

/-- The bytes that a delivery hands over. -/
def content : Delivery → List UInt8
  | bytes content => content
  | _ => []

/-- Deliveries hand over a source in parts, however it is cut, with interruptions anywhere. -/
structure Carries (deliveries : List Delivery) (source : List UInt8) : Prop where
  /-- Every delivery is a part or an interruption. -/
  parts : ∀ delivery ∈ deliveries, delivery.isPart = true
  /-- The parts make up the source. -/
  whole : deliveries.flatMap content = source

/-- Deliveries hand over a source to its end: its parts, and then nothing but ends of the
stream. -/
def HandOver (deliveries : List Delivery) (source : List UInt8) : Prop :=
  ∃ parts rest, deliveries = parts ++ rest ∧ Carries parts source ∧
    ∀ delivery ∈ rest, delivery.isEnd = true

/-- Deliveries break off: behind some parts of a source stands a failure. -/
def BreakOff (deliveries : List Delivery) (cause : IoFailure) : Prop :=
  ∃ parts source rest, deliveries = parts ++ .failure cause :: rest ∧ Carries parts source

/-- The answers of two groups of deliveries come one after the other. -/
theorem allAnswers_append (first second : List Delivery) :
    allAnswers (first ++ second) = allAnswers first ++ allAnswers second := by
  simp [allAnswers]

/-- Parts of a source are answered byte by byte. -/
theorem allAnswers_of_carries {deliveries : List Delivery} {source : List UInt8}
    (carries : Carries deliveries source) : allAnswers deliveries = source.map .byte := by
  have each : ∀ delivery ∈ deliveries, delivery.answers = delivery.content.map .byte := by
    intro delivery there
    have part := carries.parts delivery there
    cases delivery with
    | bytes content =>
      cases content with
      | nil => contradiction
      | cons byte bytes => rfl
    | interrupted => rfl
    | endOfStream => contradiction
    | failure cause => contradiction
  rw [allAnswers, ← carries.whole, List.map_flatMap, List.flatMap_def, List.flatMap_def,
    List.map_congr_left each]

/-- Ends of the stream are answered by ends of the stream. -/
theorem exists_allAnswers_of_isEnd {deliveries : List Delivery}
    (ends : ∀ delivery ∈ deliveries, delivery.isEnd = true) :
    ∃ count, allAnswers deliveries = List.replicate count .endOfStream := by
  induction deliveries with
  | nil => exact ⟨0, rfl⟩
  | cons delivery deliveries ih =>
    obtain ⟨count, rest⟩ := ih fun other there => ends other (List.mem_cons_of_mem _ there)
    have first := ends delivery List.mem_cons_self
    have split : allAnswers (delivery :: deliveries) =
        delivery.answers ++ List.replicate count .endOfStream := by
      rw [← rest]
      rfl
    cases delivery with
    | bytes content =>
      cases content with
      | nil => exact ⟨count + 1, split⟩
      | cons byte bytes => contradiction
    | interrupted => exact ⟨count, split⟩
    | endOfStream => exact ⟨count + 1, split⟩
    | failure cause => contradiction

end Delivery

namespace Stream

variable {deliveries : List Delivery} {source : List UInt8}

/-- A source that is carried is read as far as the answers behind it. -/
theorem words_ofDeliveries_append (carries : Delivery.Carries deliveries source)
    (rest : List Delivery) :
    (ofDeliveries (deliveries ++ rest)).words =
      (gather (Mode.blank.pass Position.start source).1.toArray
        (readFrom (Mode.blank.pass Position.start source).2 (Position.start.advanceAll source)
          (Delivery.allAnswers rest))).map Array.toList := by
  rw [words, ofDeliveries, ofAnswers, collect_of_unfinished, Delivery.allAnswers_append,
    Delivery.allAnswers_of_carries carries, gather_readFrom_bytes, Array.empty_append]

/-- A source that is carried has the words of the source in memory. -/
theorem words_of_carries (carries : Delivery.Carries deliveries source) {rest : List Delivery}
    (ends : ∀ delivery ∈ rest, delivery.isEnd = true) :
    (ofDeliveries (deliveries ++ rest)).words = .ok (Word.allOfBytes source) := by
  obtain ⟨count, answers⟩ := Delivery.exists_allAnswers_of_isEnd ends
  rw [words_ofDeliveries_append carries, answers, gather_readFrom_ends,
    Word.allOfBytes_eq_scan, Mode.scan_eq_pass]
  simp [Except.map]

/-- A failure behind a source is all that is left of it. -/
theorem words_of_failure (carries : Delivery.Carries deliveries source) (cause : IoFailure)
    (rest : List Delivery) :
    (ofDeliveries (deliveries ++ .failure cause :: rest)).words = .error cause := by
  rw [words_ofDeliveries_append carries]
  rfl

end Stream

end ForthAsm
