import ForthAsm.Proofs.Files

/-!
# The ways to compile a source

A source can be compiled from memory, as it is delivered by a reader, or from a file. All of them
find the same words and give the same result, however the source is cut into deliveries and
wherever its reader is interrupted. A reader that fails decides alone, whatever came before.

Main statement: `Compilation.entries_agree`.
-/

namespace ForthAsm

namespace Compilation

variable {deliveries : List Delivery} {source : List UInt8}

/-- A file that can be read and whose output can be written has the outcome of its content. -/
theorem outcome_compile_eq {tree : Tree} {path output : String} {place : Location}
    (holds : tree.read path = .ok source) (found : tree.target output = .ok place) :
    (tree.compile path output).1.outcome = (ofBytes source).outcome := by
  have lawful : Tree.freeSystem.Lawful Tree.view := Tree.lawful_system fun _ => .free
  have readable := Tree.canRead_of_read holds
  cases made : (ofBytes source).outcome with
  | error failure => exact (lawful.compile_of_failure readable made output).1
  | ok compiled =>
    exact (lawful.compile_of_created readable made (Tree.create_of_target found)).1

/-- All ways to compile a source agree. However the source is cut into deliveries, with
interruptions anywhere and then nothing but ends of the stream, its words are those of the source
in memory, and it is compiled to what they are compiled to; the same holds for a text with these
bytes and for a file that holds them. If a failure follows instead, that failure is the outcome,
whatever the words before it are. -/
theorem entries_agree (carries : Delivery.Carries deliveries source) :
    (∀ rest, (∀ delivery ∈ rest, delivery.isEnd = true) →
      (Stream.ofDeliveries (deliveries ++ rest)).words = .ok (Word.allOfBytes source) ∧
      ofDeliveries (deliveries ++ rest) = ofWords (Word.allOfBytes source) ∧
      ∀ text : String, text.toUTF8.toList = source →
        ofDeliveries (deliveries ++ rest) = ofBytes text.toUTF8.toList) ∧
    (∀ tree path output place, Tree.read tree path = .ok source →
      Tree.target tree output = .ok place →
        (tree.compile path output).1.outcome =
          (ofWords (Word.allOfBytes source)).outcome) ∧
    (∀ cause rest,
      (Stream.ofDeliveries (deliveries ++ .failure cause :: rest)).words = .error cause ∧
      ofDeliveries (deliveries ++ .failure cause :: rest) = ⟨.error (.read cause), #[]⟩) := by
  refine ⟨?_, ?_, ?_⟩
  · intro rest ends
    have words := Stream.words_of_carries carries ends
    have compiled : ofDeliveries (deliveries ++ rest) = ofWords (Word.allOfBytes source) := by
      rw [ofDeliveries, words]
    refine ⟨words, compiled, ?_⟩
    intro text same
    rw [compiled, same, ofBytes]
  · intro tree path output place holds found
    exact outcome_compile_eq holds found
  · intro cause rest
    have words := Stream.words_of_failure carries cause rest
    refine ⟨words, ?_⟩
    rw [ofDeliveries, words]

/-- Deliveries that cut a word in two and are interrupted twice. The first word is a literal that
does not fit, and the source ends in a comment. -/
def choppedDeliveries : List Delivery :=
  [.interrupted, .bytes "99999999999999999999 fr".toUTF8.data.toList, .interrupted,
    .bytes "ob / x".toUTF8.data.toList]

/-- A working directory with a file that holds the same source. -/
def choppedTree : Tree :=
  Tree.empty.withFile "a.fs" (choppedDeliveries.flatMap Delivery.content)

/-- The deliveries have the words of the source in one piece, and the literal makes the
compilation fail, also that of the file; but if the reader fails, that is the failure. -/
theorem entries_agree_chopped :
    (Stream.ofDeliveries (choppedDeliveries ++ [.endOfStream, .endOfStream])).words =
      .ok [⟨"99999999999999999999", ⟨1, 1⟩⟩, ⟨"frob", ⟨1, 22⟩⟩] ∧
    (ofDeliveries (choppedDeliveries ++ [.endOfStream, .endOfStream])).outcome =
      .error (.literalOutOfRange ⟨"99999999999999999999", ⟨1, 1⟩⟩) ∧
    (choppedTree.compile "a.fs" "code.s").1.outcome =
      .error (.literalOutOfRange ⟨"99999999999999999999", ⟨1, 1⟩⟩) ∧
    (ofDeliveries (choppedDeliveries ++ [.failure (.other "device gone")])).outcome =
      .error (.read (.other "device gone")) := by
  have carries : Delivery.Carries choppedDeliveries (choppedDeliveries.flatMap Delivery.content) :=
    ⟨by decide, rfl⟩
  have words : Word.allOfBytes (choppedDeliveries.flatMap Delivery.content) =
      [⟨"99999999999999999999", ⟨1, 1⟩⟩, ⟨"frob", ⟨1, 22⟩⟩] := by
    rw [Word.allOfBytes_eq_scan]
    decide
  have large : Word.firstLarge? [⟨"99999999999999999999", ⟨1, 1⟩⟩, ⟨"frob", ⟨1, 22⟩⟩] =
      some ⟨"99999999999999999999", ⟨1, 1⟩⟩ := by decide
  obtain ⟨ended, file, failed⟩ := entries_agree carries
  obtain ⟨found, compiled, _⟩ := ended [.endOfStream, .endOfStream] (by decide)
  refine ⟨?_, ?_, ?_, ?_⟩
  · rw [found, words]
  · rw [compiled, words, outcome_ofWords, large]
  · rw [file choppedTree "a.fs" "code.s" ⟨["home", "work", "code.s"]⟩ rfl rfl, words,
      outcome_ofWords, large]
  · rw [(failed (.other "device gone") []).2]

end Compilation

end ForthAsm
