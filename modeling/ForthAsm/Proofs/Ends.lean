import ForthAsm.Compilation
import ForthAsm.Proofs.Results
import ForthAsm.Proofs.Tokens

/-!
# Answers behind an end of the stream

A reader may have more to say behind an end of the stream, as a terminal does. Between words and
inside a word the first end of the stream ends the source, and nothing behind it is seen. Inside a
comment it ends only the comment: the reader is asked again, and what it says then is read as more
of the source, from the position that was reached.

Main statement: `Stream.first_end_exact`, the first end of the stream ends the source exactly if no
comment is open there, and otherwise reading goes on behind it.
-/

namespace ForthAsm

namespace Source

variable {source : List UInt8} {place : Nat} {pending : List Word}

/-- A mode that follows a source up to a place leads to one that follows all of it. -/
theorem Follows.exists_pass {mode : Mode} (follows : Follows source place mode pending)
    (bound : place ≤ source.length) :
    ∃ later, Follows source source.length
      (mode.pass (Position.behind (source.take place)) (source.drop place)).2 later := by
  -- The induction is on the number of bytes that are left.
  induction left : source.length - place generalizing place mode pending with
  | zero =>
    have ended : place = source.length := by omega
    subst ended
    rw [List.drop_length]
    exact ⟨pending, follows⟩
  | succ count ih =>
    have inside : place < source.length := by omega
    have found := List.getElem?_eq_getElem inside
    have later : Position.behind (source.take (place + 1)) =
        (Position.behind (source.take place)).advance source[place] := by
      rw [← Position.behind_concat, List.take_add_one, found, Option.toList_some]
    rw [List.drop_eq_getElem_cons inside, Mode.pass]
    rcases follows.read found with ⟨next, read, follows⟩ | ⟨word, read, complete, follows⟩
    · rw [read, ← later]
      exact ih follows (by omega) (by omega)
    · rw [read, ← later]
      exact ih follows (by omega) (by omega)

end Source

namespace Stream

variable {deliveries : List Delivery} {source : List UInt8} {stop : Delivery}

/-- Behind a source and an end of the stream come the words of the source, and then, if a comment
was open, what the reader still has to say. -/
theorem results_of_end (carries : Delivery.Carries deliveries source)
    (stops : stop.answers = [.endOfStream]) (rest : List Delivery) :
    (ofDeliveries (deliveries ++ stop :: rest)).results =
      (Word.allOfBytes source).map .ok ++
        if Source.commentOpen source source.length then
          results ⟨Position.start.advanceAll source, Delivery.allAnswers rest, false⟩
        else [] := by
  have answers : Delivery.allAnswers (stop :: rest) =
      .endOfStream :: Delivery.allAnswers rest := by
    rw [Delivery.allAnswers, List.flatMap_cons, stops]
    rfl
  have start : Source.Follows source 0 .blank [] := .blank rfl (.inl rfl)
  obtain ⟨later, follows⟩ := start.exists_pass (Nat.zero_le source.length)
  have reached : Source.Follows source source.length
      (Mode.blank.pass Position.start source).2 later := follows
  rw [results_ofDeliveries_append carries, answers, Word.allOfBytes_eq_scan, Mode.scan_eq_pass,
    List.map_append, List.append_assoc, results_unfinished]
  congr 1
  generalize (Mode.blank.pass Position.start source).2 = mode at reached
  cases reached with
  | blank outside apart => simp [Mode.results, Mode.pending, outside]
  | word begun run outside => simp [Mode.results, Mode.pending, outside]
  | comment inside => simp [Mode.results, Mode.pending, inside]

/-- With nothing behind the end of the stream, only the words of the source are handed out. -/
theorem results_of_last_end (carries : Delivery.Carries deliveries source)
    (stops : stop.answers = [.endOfStream]) :
    (ofDeliveries (deliveries ++ [stop])).results = (Word.allOfBytes source).map .ok := by
  have nothing : results ⟨Position.start.advanceAll source, Delivery.allAnswers [], false⟩ = [] :=
    rfl
  rw [results_of_end carries stops, nothing, ite_self, List.append_nil]

/-- Streams with the same results have the same words. -/
theorem words_eq_of_results_eq {stream other : Stream} (same : stream.results = other.results) :
    stream.words = other.words := by
  obtain ⟨words, failure, all⟩ := exists_words_failure other
  rw [words_eq_of_results all, words_eq_of_results (same.trans all)]

/-- The first end of the stream ends the source exactly if no comment is open there: then whatever
the reader would say behind it, every call gives the same, and so do reading all words and
compiling. If a comment is open, the calls give the words of the source, and then what a reader
gives that starts with the rest at the position behind the source. -/
theorem first_end_exact (carries : Delivery.Carries deliveries source)
    (stops : stop.answers = [.endOfStream]) :
    ((∀ rest calls, (ofDeliveries (deliveries ++ stop :: rest)).result calls =
        (ofDeliveries (deliveries ++ [stop])).result calls) ↔
      Source.commentOpen source source.length = false) ∧
    (Source.commentOpen source source.length = false → ∀ rest,
      (ofDeliveries (deliveries ++ stop :: rest)).words =
        (ofDeliveries (deliveries ++ [stop])).words ∧
      Compilation.ofDeliveries (deliveries ++ stop :: rest) =
        Compilation.ofDeliveries (deliveries ++ [stop])) ∧
    (Source.commentOpen source source.length = true → ∀ rest calls,
      (calls < (Word.allOfBytes source).length →
        (ofDeliveries (deliveries ++ stop :: rest)).result calls =
          (Word.allOfBytes source)[calls]?.map .ok) ∧
      (ofDeliveries (deliveries ++ stop :: rest)).result
          ((Word.allOfBytes source).length + calls) =
        result ⟨Position.start.advanceAll source, Delivery.allAnswers rest, false⟩ calls) := by
  have alone := results_of_last_end carries stops
  have outside : Source.commentOpen source source.length = false → ∀ rest,
      (ofDeliveries (deliveries ++ stop :: rest)).results =
        (ofDeliveries (deliveries ++ [stop])).results := by
    intro closed rest
    rw [results_of_end carries stops, alone, closed]
    simp
  have inside : Source.commentOpen source source.length = true → ∀ rest calls,
      (ofDeliveries (deliveries ++ stop :: rest)).result
          ((Word.allOfBytes source).length + calls) =
        result ⟨Position.start.advanceAll source, Delivery.allAnswers rest, false⟩ calls := by
    intro opened rest calls
    rw [result_eq_getElem?, results_of_end carries stops, if_pos opened, result_eq_getElem?,
      List.getElem?_append_right (by simp)]
    simp
  refine ⟨⟨?_, ?_⟩, ?_, ?_⟩
  · intro same
    cases opened : Source.commentOpen source source.length with
    | false => rfl
    | true =>
      -- A letter behind the end of the stream is handed out behind the words of the source.
      have letter : result ⟨Position.start.advanceAll source, Delivery.allAnswers [.bytes [120]],
          false⟩ 0 = some (.ok (Word.ofByte (Position.start.advanceAll source) 120)) := rfl
      have hidden : (ofDeliveries (deliveries ++ [stop])).result
          ((Word.allOfBytes source).length + 0) = none := by
        rw [result_eq_getElem?, alone]
        simp
      have shown := inside opened [.bytes [120]] 0
      rw [same, hidden, letter] at shown
      contradiction
  · intro closed rest calls
    rw [result_eq_getElem?, result_eq_getElem?, outside closed rest]
  · intro closed rest
    have words := words_eq_of_results_eq (outside closed rest)
    refine ⟨words, ?_⟩
    rw [Compilation.ofDeliveries, Compilation.ofDeliveries, words]
  · intro opened rest calls
    refine ⟨?_, inside opened rest calls⟩
    intro early
    rw [result_eq_getElem?, results_of_end carries stops,
      List.getElem?_append_left (by simpa using early), List.getElem?_map]

/-- Deliveries that end inside a word, with an interruption. -/
def typedDeliveries : List Delivery :=
  [.bytes "1 2 fro".toUTF8.data.toList, .interrupted, .bytes "b".toUTF8.data.toList]

/-- A word is ended by an empty delivery, and neither the bytes nor the failure behind it are
seen. -/
theorem first_end_exact_typed :
    (∀ calls, (ofDeliveries (typedDeliveries ++ .bytes [] ::
        [.bytes "x".toUTF8.data.toList, .failure .notFound])).result calls =
      (ofDeliveries (typedDeliveries ++ [.bytes []])).result calls) ∧
    (ofDeliveries (typedDeliveries ++ .bytes [] ::
        [.bytes "x".toUTF8.data.toList, .failure .notFound])).words =
      (ofDeliveries (typedDeliveries ++ [.bytes []])).words := by
  have carries : Delivery.Carries typedDeliveries (typedDeliveries.flatMap Delivery.content) :=
    ⟨by decide, rfl⟩
  have closed : Source.commentOpen (typedDeliveries.flatMap Delivery.content)
      (typedDeliveries.flatMap Delivery.content).length = false := by decide
  obtain ⟨same, whole, -⟩ := first_end_exact carries (show (Delivery.bytes []).answers = _ from rfl)
  exact ⟨same.mpr closed _, (whole closed _).1⟩

/-- Bytes that open a comment. -/
def remark : List UInt8 :=
  "/ x".toUTF8.data.toList

/-- An end of the stream inside a comment does not end the source: with nothing behind it there is
no word, but a word behind it is handed out, in the same line. -/
theorem first_end_in_comment :
    Delivery.Carries [.bytes remark] remark ∧
    (ofDeliveries ([.bytes remark] ++ [.endOfStream])).result 0 = none ∧
    (ofDeliveries ([.bytes remark] ++ .endOfStream :: [.bytes "dup".toUTF8.data.toList])).result 0 =
      some (.ok ⟨"dup", ⟨1, 4⟩⟩) := by
  refine ⟨⟨by decide, by decide⟩, ?_, ?_⟩
  · rfl
  · rfl

end Stream

end ForthAsm
