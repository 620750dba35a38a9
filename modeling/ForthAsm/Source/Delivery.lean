import ForthAsm.IoFailure

/-!
# Deliveries of a source

A source arrives in deliveries: some bytes, the end of the stream, an interruption that is
retried at once, or a failure. Seen one request at a time this is a list of answers. The end
of the stream is an answer to one request only, and a terminal may have more to say after it;
once the last delivery is used up, every further request finds the end of the stream.
-/

namespace ForthAsm

/-- What a reader does when it is asked for more of a source. -/
inductive Delivery where
  /-- It hands over bytes. No bytes at all mean the end of the stream. -/
  | bytes (content : List UInt8)
  /-- It says that the stream has ended. -/
  | endOfStream
  /-- It was interrupted, and the request is repeated. -/
  | interrupted
  /-- It fails. -/
  | failure (cause : IoFailure)
  deriving DecidableEq, Repr

/-- What a request for a single byte is answered with. -/
inductive Answer where
  /-- The next byte of the source. -/
  | byte (value : UInt8)
  /-- There is no byte at this moment. -/
  | endOfStream
  /-- The reader failed. -/
  | failure (cause : IoFailure)
  deriving DecidableEq, Repr

/-- The answers that a delivery gives, in order. -/
def Delivery.answers : Delivery → List Answer
  | .bytes [] => [.endOfStream]
  | .bytes content => content.map .byte
  | .endOfStream => [.endOfStream]
  | .interrupted => []
  | .failure cause => [.failure cause]

/-- The answers that a list of deliveries gives, in order. -/
def Delivery.allAnswers (deliveries : List Delivery) : List Answer :=
  deliveries.flatMap Delivery.answers

end ForthAsm
