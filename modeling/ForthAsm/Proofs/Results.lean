import ForthAsm.Proofs.Deliveries

/-!
# The results of a stream, call by call

A stream can be asked for its next word again and again. `Mode.results` lists in one pass all that
it will hand out, and a call takes the first result off that list. So the results are some words,
then perhaps one failure, and then nothing for ever.

A call makes one request after the other, and behind the last delivery every request finds the end
of the stream. `Stream.Calls` follows a call request by request and counts them; that there is such
a count is what it means that the call ends.

Main statement: `Stream.call_protocol`, what a stream hands out over all calls, and that it makes
no more requests once it has failed or has nothing more to hand out.
-/

namespace ForthAsm

/-- All that reading on from a mode hands out, in order. -/
def Mode.results (mode : Mode) (position : Position) :
    List Answer → List (Except IoFailure Word)
  | [] => mode.pending.map .ok
  | .endOfStream :: later =>
    match mode with
    | .blank => []
    | .word unfinished => [.ok unfinished]
    | .comment held => held.toList.map .ok ++ Mode.blank.results position later
  | .failure cause :: _ => [.error cause]
  | .byte byte :: later =>
    match mode.read position byte with
    | .onward mode => mode.results (position.advance byte) later
    | .complete found => .ok found :: Mode.blank.results (position.advance byte) later

namespace Mode

/-- Bytes add the words that they complete, and then come the results from the mode that they
lead to. -/
theorem results_bytes_append (mode : Mode) (position : Position) (bytes : List UInt8)
    (later : List Answer) :
    mode.results position (bytes.map .byte ++ later) =
      (mode.pass position bytes).1.map .ok ++
        (mode.pass position bytes).2.results (position.advanceAll bytes) later := by
  induction bytes generalizing mode position with
  | nil => rfl
  | cons byte bytes ih =>
    rw [List.map_cons, List.cons_append, results, pass, Position.advanceAll_cons]
    cases mode.read position byte with
    | onward next => exact ih next (position.advance byte)
    | complete word => simp only [ih, List.map_cons, List.cons_append]

/-- A scan of some bytes and more finds the words that the first bytes complete, and then goes on
from the mode that they lead to. -/
theorem scan_append (mode : Mode) (position : Position) (bytes more : List UInt8) :
    mode.scan position (bytes ++ more) =
      (mode.pass position bytes).1 ++
        (mode.pass position bytes).2.scan (position.advanceAll bytes) more := by
  induction bytes generalizing mode position with
  | nil => rfl
  | cons byte bytes ih =>
    rw [List.cons_append, scan, pass, Position.advanceAll_cons]
    cases mode.read position byte with
    | onward next => exact ih next (position.advance byte)
    | complete word => simp only [ih, List.cons_append]

/-- Only the last result can be a failure. -/
theorem results_eq_words_failure (mode : Mode) (position : Position) (answers : List Answer) :
    ∃ (words : List Word) (failure : Option IoFailure),
      mode.results position answers = words.map .ok ++ (failure.map .error).toList := by
  induction answers generalizing mode position with
  | nil => exact ⟨mode.pending, none, by simp [results]⟩
  | cons answer answers ih =>
    cases answer with
    | failure cause => exact ⟨[], some cause, rfl⟩
    | endOfStream =>
      cases mode with
      | blank => exact ⟨[], none, rfl⟩
      | word unfinished => exact ⟨[unfinished], none, rfl⟩
      | comment held =>
        obtain ⟨words, failure, rest⟩ := ih .blank position
        exact ⟨held.toList ++ words, failure, by simp [results, rest]⟩
    | byte byte =>
      rw [results]
      cases mode.read position byte with
      | onward next => exact ih next (position.advance byte)
      | complete word =>
        obtain ⟨words, failure, rest⟩ := ih .blank (position.advance byte)
        exact ⟨word :: words, failure, by simp [rest]⟩

end Mode

namespace Stream

/-- All that a stream hands out, in order. -/
def results (stream : Stream) : List (Except IoFailure Word) :=
  if stream.finished then [] else Mode.blank.results stream.position stream.answers

/-- An unfinished stream hands out what is read from a blank. -/
@[simp]
theorem results_unfinished (position : Position) (answers : List Answer) :
    results ⟨position, answers, false⟩ = Mode.blank.results position answers := rfl

/-- Reading on gives the first result, and the stream that it leaves has the others. -/
theorem readFrom_eq_results (mode : Mode) (position : Position) (answers : List Answer) :
    (readFrom mode position answers).1 = (mode.results position answers).head? ∧
      (readFrom mode position answers).2.results = (mode.results position answers).tail := by
  induction answers generalizing mode position with
  | nil =>
    cases mode with
    | blank => exact ⟨rfl, rfl⟩
    | word unfinished => exact ⟨rfl, rfl⟩
    | comment held => cases held <;> exact ⟨rfl, rfl⟩
  | cons answer answers ih =>
    cases answer with
    | failure cause => exact ⟨rfl, rfl⟩
    | endOfStream =>
      cases mode with
      | blank => exact ⟨rfl, rfl⟩
      | word unfinished => exact ⟨rfl, rfl⟩
      | comment held =>
        -- The end of the stream ends only the comment, and what follows is read from a blank.
        cases held with
        | none => exact ih .blank position
        | some cut => exact ⟨rfl, rfl⟩
    | byte byte =>
      rw [readFrom, Mode.results]
      cases mode.read position byte with
      | onward next => exact ih next (position.advance byte)
      | complete word => exact ⟨rfl, rfl⟩

/-- A call gives the first result, and the stream after it has the others. -/
theorem next_eq_results (stream : Stream) :
    stream.next.1 = stream.results.head? ∧ stream.next.2.results = stream.results.tail := by
  cases ended : stream.finished with
  | true =>
    have empty : stream.results = [] := by simp [results, ended]
    rw [next_of_finished ended, empty]
    exact ⟨rfl, rfl⟩
  | false =>
    have all : stream.results = Mode.blank.results stream.position stream.answers := by
      simp [results, ended]
    rw [next_of_unfinished ended, all]
    exact readFrom_eq_results .blank stream.position stream.answers

/-- The stream after a number of calls. -/
def after (stream : Stream) : Nat → Stream
  | 0 => stream
  | calls + 1 => stream.next.2.after calls

/-- What a call gives that has a number of calls before it. -/
def result (stream : Stream) (calls : Nat) : Option (Except IoFailure Word) :=
  (stream.after calls).next.1

/-- The calls give the results one after the other, and then nothing. -/
theorem result_eq_getElem? (stream : Stream) (calls : Nat) :
    stream.result calls = stream.results[calls]? := by
  induction calls generalizing stream with
  | zero => rw [result, after, stream.next_eq_results.1, List.head?_eq_getElem?]
  | succ calls ih =>
    have later : stream.result (calls + 1) = stream.next.2.result calls := rfl
    rw [later, ih, stream.next_eq_results.2, List.getElem?_tail]

/-- Calls after calls lead as far as all of them. -/
theorem after_add (stream : Stream) (earlier later : Nat) :
    stream.after (earlier + later) = (stream.after earlier).after later := by
  induction earlier generalizing stream with
  | zero => rw [Nat.zero_add, after]
  | succ earlier ih => rw [Nat.add_right_comm, after, ih, after]

/-- Calls of a finished stream leave it as it is. -/
theorem after_of_finished {stream : Stream} (ended : stream.finished = true) (calls : Nat) :
    stream.after calls = stream := by
  induction calls with
  | zero => rfl
  | succ calls ih => rw [after, next_of_finished ended, ih]

/-- Reading all words gives the words among the results, or the failure at their end. -/
theorem collect_eq_of_results {stream : Stream} {words : List Word} {failure : Option IoFailure}
    (all : stream.results = words.map .ok ++ (failure.map .error).toList) (found : Array Word) :
    stream.collect found = failure.elim (.ok (found ++ words.toArray)) .error := by
  induction words generalizing stream found with
  | nil =>
    have first := stream.next_eq_results.1
    rw [all] at first
    cases failure with
    | none => simpa using collect_of_none first found
    | some cause =>
      have failed : stream.next = (some (.error cause), stream.next.2) := Prod.ext first rfl
      rw [collect_eq_gather, failed]
      rfl
  | cons word words ih =>
    obtain ⟨first, others⟩ := stream.next_eq_results
    rw [all] at first others
    have read : stream.next = (some (.ok word), stream.next.2) := Prod.ext first rfl
    rw [collect_of_word read, ih others]
    simp

/-- Only the last result of a stream can be a failure. -/
theorem exists_words_failure (stream : Stream) :
    ∃ (words : List Word) (failure : Option IoFailure),
      stream.results = words.map .ok ++ (failure.map .error).toList := by
  cases ended : stream.finished with
  | true => exact ⟨[], none, by simp [results, ended]⟩
  | false =>
    obtain ⟨words, failure, all⟩ :=
      Mode.results_eq_words_failure .blank stream.position stream.answers
    exact ⟨words, failure, by simpa [results, ended] using all⟩

/-- All words of a stream are the words among its results, unless a failure ends them. -/
theorem words_eq_of_results {stream : Stream} {words : List Word} {failure : Option IoFailure}
    (all : stream.results = words.map .ok ++ (failure.map .error).toList) :
    stream.words = failure.elim (.ok words) .error := by
  rw [Stream.words, collect_eq_of_results all]
  cases failure <;> simp [Except.map]

end Stream

/-! ## Requests -/

/-- What the answer to a request leads to. -/
inductive Turn where
  /-- One more request is needed. -/
  | onward (mode : Mode) (position : Position)
  /-- The call is over, and perhaps the source as well. -/
  | ended (given : Option (Except IoFailure Word)) (position : Position) (finished : Bool)
  deriving Repr

/-- What an answer leads to in a mode at a position. -/
def Mode.hear (mode : Mode) (position : Position) : Answer → Turn
  | .failure cause => .ended (some (.error cause)) position true
  | .endOfStream =>
    match mode with
    | .blank => .ended none position true
    | .word unfinished => .ended (some (.ok unfinished)) position true
    | .comment (some cut) => .ended (some (.ok cut)) position false
    | .comment none => .onward .blank position
  | .byte byte =>
    match mode.read position byte with
    | .onward later => .onward later (position.advance byte)
    | .complete found => .ended (some (.ok found)) (position.advance byte) false

namespace Stream

/-- A call that waits for an answer in a mode: how many requests it still makes, what it gives in
the end and the stream that it leaves. A request takes the next answer, and behind the last one it
finds the end of the stream. -/
inductive Asks : Mode → Position → List Answer → Nat → Option (Except IoFailure Word) → Stream →
    Prop
  /-- The answer ends the call. -/
  | last {mode : Mode} {position later : Position} {answers : List Answer}
      {given : Option (Except IoFailure Word)} {finished : Bool}
      (heard : mode.hear position (answers.headD .endOfStream) = .ended given later finished) :
      Asks mode position answers 1 given ⟨later, answers.tail, finished⟩
  /-- The answer leads to another request. -/
  | more {mode next : Mode} {position later : Position} {answers : List Answer} {requests : Nat}
      {given : Option (Except IoFailure Word)} {left : Stream}
      (heard : mode.hear position (answers.headD .endOfStream) = .onward next later)
      (others : Asks next later answers.tail requests given left) :
      Asks mode position answers (requests + 1) given left

/-- A call: how many requests it makes, what it gives and the stream that it leaves. -/
inductive Calls (stream : Stream) : Nat → Option (Except IoFailure Word) → Stream → Prop
  /-- A finished stream makes no request. -/
  | idle (ended : stream.finished = true) : Calls stream 0 none stream
  /-- An unfinished stream starts from a blank. -/
  | asking {requests : Nat} {given : Option (Except IoFailure Word)} {left : Stream}
      (unfinished : stream.finished = false)
      (asked : Asks .blank stream.position stream.answers requests given left) :
      Calls stream requests given left

/-- Reading on makes a request and goes on with its answer. -/
theorem readFrom_eq_hear (mode : Mode) (position : Position) (answers : List Answer) :
    readFrom mode position answers =
      match mode.hear position (answers.headD .endOfStream) with
      | .onward next later => readFrom next later answers.tail
      | .ended given later finished => (given, ⟨later, answers.tail, finished⟩) := by
  cases answers with
  | nil =>
    cases mode with
    | blank => rfl
    | word unfinished => rfl
    | comment held => cases held <;> rfl
  | cons answer answers =>
    rw [List.headD_cons, List.tail_cons]
    cases answer with
    | failure cause => rfl
    | endOfStream =>
      cases mode with
      | blank => rfl
      | word unfinished => rfl
      | comment held => cases held <;> rfl
    | byte byte =>
      rw [readFrom, Mode.hear]
      cases mode.read position byte <;> rfl

/-- Reading on ends after at most two requests more than there are answers. The two are made when
the answers end inside a comment: one ends the comment and one the source. -/
theorem exists_asks (mode : Mode) (position : Position) (answers : List Answer) :
    ∃ requests ≤ answers.length + 2,
      Asks mode position answers requests (readFrom mode position answers).1
        (readFrom mode position answers).2 := by
  induction answers generalizing mode position with
  | nil =>
    cases mode with
    | blank => exact ⟨1, by decide, .last rfl⟩
    | word unfinished => exact ⟨1, by decide, .last rfl⟩
    | comment held =>
      cases held with
      | none => exact ⟨2, by decide, .more rfl (.last rfl)⟩
      | some cut => exact ⟨1, by decide, .last rfl⟩
  | cons answer answers ih =>
    have longer : (answer :: answers).length = answers.length + 1 := rfl
    rw [readFrom_eq_hear]
    cases heard : mode.hear position ((answer :: answers).headD .endOfStream) with
    | onward next later =>
      obtain ⟨requests, few, others⟩ := ih next later
      exact ⟨requests + 1, by omega, .more heard others⟩
    | ended given later finished => exact ⟨1, by omega, .last heard⟩

/-- Reading on ends in one way only. -/
theorem Asks.readFrom_eq {mode : Mode} {position : Position} {answers : List Answer}
    {requests : Nat} {given : Option (Except IoFailure Word)} {left : Stream}
    (asked : Asks mode position answers requests given left) :
    readFrom mode position answers = (given, left) := by
  induction asked with
  | last heard => rw [readFrom_eq_hear, heard]
  | more heard others ih =>
    rw [readFrom_eq_hear, heard]
    exact ih

/-- Every call ends after at most two requests more than there are answers left. -/
theorem exists_calls (stream : Stream) :
    ∃ requests ≤ stream.answers.length + 2,
      stream.Calls requests stream.next.1 stream.next.2 := by
  cases ended : stream.finished with
  | true =>
    rw [next_of_finished ended]
    exact ⟨0, Nat.zero_le _, .idle ended⟩
  | false =>
    obtain ⟨requests, few, asked⟩ := exists_asks .blank stream.position stream.answers
    rw [next_of_unfinished ended]
    exact ⟨requests, few, .asking ended asked⟩

/-- A call ends in one way only. -/
theorem Calls.next_eq {stream left : Stream} {requests : Nat}
    {given : Option (Except IoFailure Word)} (called : stream.Calls requests given left) :
    stream.next = (given, left) := by
  cases called with
  | idle ended => exact next_of_finished ended
  | asking unfinished asked => rw [next_of_unfinished unfinished, asked.readFrom_eq]

/-- A finished stream makes no request. -/
theorem Calls.requests_eq_zero {stream left : Stream} {requests : Nat}
    {given : Option (Except IoFailure Word)} (called : stream.Calls requests given left)
    (ended : stream.finished = true) : requests = 0 := by
  cases called with
  | idle ended => rfl
  | asking unfinished asked =>
    rw [ended] at unfinished
    contradiction

/-- Reading on that gives no word finishes the stream. -/
theorem finished_of_readFrom (mode : Mode) (position : Position) (answers : List Answer)
    (wordless : ∀ word, (readFrom mode position answers).1 ≠ some (.ok word)) :
    (readFrom mode position answers).2.finished = true := by
  fun_induction readFrom mode position answers <;> simp_all

/-- A call that gives no word finishes the stream. -/
theorem finished_of_next {stream : Stream} (wordless : ∀ word, stream.next.1 ≠ some (.ok word)) :
    stream.next.2.finished = true := by
  cases ended : stream.finished with
  | true => rw [next_of_finished ended, ended]
  | false =>
    rw [next_of_unfinished ended] at wordless ⊢
    exact finished_of_readFrom .blank stream.position stream.answers wordless

/-- Once a call has given no word, later calls make no request. -/
theorem requests_eq_zero_of_lt {stream left : Stream} {earlier later requests : Nat}
    {given : Option (Except IoFailure Word)} (ordered : earlier < later)
    (wordless : ∀ word, stream.result earlier ≠ some (.ok word))
    (called : (stream.after later).Calls requests given left) : requests = 0 := by
  have next : stream.after (earlier + 1) = (stream.after earlier).next.2 := by
    rw [after_add]
    rfl
  have ended : (stream.after (earlier + 1)).finished = true := by
    rw [next]
    exact finished_of_next wordless
  have same : stream.after later = stream.after (earlier + 1) := by
    rw [show later = earlier + 1 + (later - (earlier + 1)) by omega, after_add]
    exact after_of_finished ended _
  rw [same] at called
  exact called.requests_eq_zero ended

/-- The words among some results and the failure at their end can be told apart. -/
theorem words_failure_injective {words others : List Word} {failure cause : Option IoFailure}
    (same : words.map Except.ok ++ (failure.map Except.error).toList =
      others.map Except.ok ++ (cause.map Except.error).toList) :
    words = others ∧ failure = cause := by
  have left : ∀ (words : List Word) (failure : Option IoFailure),
      (words.map Except.ok ++ (failure.map Except.error).toList).filterMap Except.toOption =
        words := by
    intro words failure
    have kept : (words.map Except.ok).filterMap (Except.toOption : Except IoFailure Word → _) =
        words := by
      rw [List.filterMap_map]
      exact List.filterMap_some
    have dropped : ((failure.map Except.error).toList).filterMap
        (Except.toOption : Except IoFailure Word → _) = [] := by
      cases failure <;> rfl
    rw [List.filterMap_append, kept, dropped, List.append_nil]
  have equal : words = others := by
    rw [← left words failure, same, left]
  subst equal
  have ends := List.append_cancel_left same
  cases failure <;> cases cause <;> simp_all

variable {deliveries : List Delivery} {source : List UInt8}

/-- A source that is carried hands out the words that it completes, and then what follows it. -/
theorem results_ofDeliveries_append (carries : Delivery.Carries deliveries source)
    (rest : List Delivery) :
    (ofDeliveries (deliveries ++ rest)).results =
      (Mode.blank.pass Position.start source).1.map .ok ++
        (Mode.blank.pass Position.start source).2.results (Position.start.advanceAll source)
          (Delivery.allAnswers rest) := by
  rw [ofDeliveries, ofAnswers, results_unfinished, Delivery.allAnswers_append,
    Delivery.allAnswers_of_carries carries, Mode.results_bytes_append]

/-- The words that a source completes come first among the words of any longer source. -/
theorem pass_prefix_allOfBytes (source more : List UInt8) :
    (Mode.blank.pass Position.start source).1 <+: Word.allOfBytes (source ++ more) := by
  rw [Word.allOfBytes_eq_scan, Mode.scan_append]
  exact List.prefix_append _ _

/-- What a stream hands out over all calls, whatever is delivered. Every call ends, and in one way
only; the calls give some words, then at most one failure, and then nothing for ever; and once a
call has given no word, later calls make no request. Reading all words fails exactly with that
failure, and otherwise gives those words. If nothing but parts of a source came before the failure,
then these words come first whatever the rest of the source would have been, so a word that may
still grow is not among them. -/
theorem call_protocol (deliveries : List Delivery) :
    ∃ (words : List Word) (failure : Option IoFailure),
      (∀ calls,
        (∃ requests ≤ ((ofDeliveries deliveries).after calls).answers.length + 2,
          ((ofDeliveries deliveries).after calls).Calls requests
            ((ofDeliveries deliveries).result calls)
            ((ofDeliveries deliveries).after (calls + 1))) ∧
        ∀ requests given left,
          ((ofDeliveries deliveries).after calls).Calls requests given left →
            given = (ofDeliveries deliveries).result calls ∧
            left = (ofDeliveries deliveries).after (calls + 1)) ∧
      (∀ calls, (ofDeliveries deliveries).result calls =
        (words.map .ok ++ (failure.map .error).toList)[calls]?) ∧
      (∀ earlier later requests given left, earlier < later →
        ((ofDeliveries deliveries).result earlier = none ∨
          ∃ cause, (ofDeliveries deliveries).result earlier = some (.error cause)) →
        ((ofDeliveries deliveries).after later).Calls requests given left → requests = 0) ∧
      (ofDeliveries deliveries).words = failure.elim (.ok words) .error ∧
      ∀ parts source cause rest, deliveries = parts ++ .failure cause :: rest →
        Delivery.Carries parts source →
          failure = some cause ∧ ∀ more, words <+: Word.allOfBytes (source ++ more) := by
  have next : ∀ calls, (ofDeliveries deliveries).after (calls + 1) =
      ((ofDeliveries deliveries).after calls).next.2 := by
    intro calls
    rw [after_add]
    rfl
  obtain ⟨words, failure, all⟩ := exists_words_failure (ofDeliveries deliveries)
  refine ⟨words, failure, ?_, ?_, ?_, words_eq_of_results all, ?_⟩
  · intro calls
    rw [next, result]
    refine ⟨exists_calls _, ?_⟩
    intro requests given left called
    rw [called.next_eq]
    exact ⟨rfl, rfl⟩
  · intro calls
    rw [result_eq_getElem?, all]
  · intro earlier later requests given left ordered ended called
    apply requests_eq_zero_of_lt ordered _ called
    intro word found
    rcases ended with none | ⟨cause, failed⟩
    · rw [none] at found
      contradiction
    · rw [failed] at found
      simp at found
  · rintro parts source cause rest rfl carries
    have shown := results_ofDeliveries_append carries (.failure cause :: rest)
    have same : words.map Except.ok ++ (failure.map Except.error).toList =
        (Mode.blank.pass Position.start source).1.map .ok ++
          ((some cause).map Except.error).toList := all.symm.trans shown
    obtain ⟨found, ended⟩ := words_failure_injective same
    refine ⟨ended, ?_⟩
    intro more
    rw [found]
    exact pass_prefix_allOfBytes source more

/-- Deliveries that break off inside a word, with more bytes behind the failure. -/
def brokenDeliveries : List Delivery :=
  [.bytes "3 fo".toUTF8.data.toList, .interrupted, .bytes "o 4".toUTF8.data.toList,
    .failure (.other "device gone"), .bytes " 5".toUTF8.data.toList]

/-- The word that was begun before the failure is not handed out, since it could have become
another one. -/
theorem call_protocol_broken :
    ∃ words : List Word,
      (∀ calls, (ofDeliveries brokenDeliveries).result calls =
        (words.map .ok ++ [.error (.other "device gone")])[calls]?) ∧
      (ofDeliveries brokenDeliveries).words = .error (.other "device gone") ∧
      words <+: [⟨"3", ⟨1, 1⟩⟩, ⟨"foo", ⟨1, 3⟩⟩, ⟨"4", ⟨1, 7⟩⟩] ∧
      words <+: [⟨"3", ⟨1, 1⟩⟩, ⟨"foo", ⟨1, 3⟩⟩, ⟨"42", ⟨1, 7⟩⟩] := by
  have carries : Delivery.Carries (brokenDeliveries.take 3) "3 foo 4".toUTF8.data.toList :=
    ⟨by decide, by decide⟩
  obtain ⟨words, failure, -, results, -, read, broken⟩ := call_protocol brokenDeliveries
  obtain ⟨rfl, first⟩ := broken _ _ (.other "device gone") _ rfl carries
  have without : Word.allOfBytes ("3 foo 4".toUTF8.data.toList ++ []) =
      [⟨"3", ⟨1, 1⟩⟩, ⟨"foo", ⟨1, 3⟩⟩, ⟨"4", ⟨1, 7⟩⟩] := by
    rw [Word.allOfBytes_eq_scan]
    decide
  have grown : Word.allOfBytes ("3 foo 4".toUTF8.data.toList ++ [50]) =
      [⟨"3", ⟨1, 1⟩⟩, ⟨"foo", ⟨1, 3⟩⟩, ⟨"42", ⟨1, 7⟩⟩] := by
    rw [Word.allOfBytes_eq_scan]
    decide
  refine ⟨words, results, read, ?_, ?_⟩
  · rw [← without]
    exact first []
  · rw [← grown]
    exact first [50]

end Stream

end ForthAsm
