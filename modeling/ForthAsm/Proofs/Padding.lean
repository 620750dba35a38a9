import ForthAsm.Proofs.Deliveries
import ForthAsm.Proofs.Layout
import ForthAsm.Proofs.Lines

/-!
# Blanks at the end of a line

Carriage returns, spaces and tabs before a line feed are not seen, and neither are those at the end
of a source. They end a word that the line feed would have ended, they belong to a comment that the
line feed ends, and the columns that they take up are forgotten in the next line. So it makes no
difference how the lines of a source end.

Main statement: `Compilation.padding_unseen`, a source and the source with such blanks have the same
words, each at its position, and are compiled to the same.
-/

namespace ForthAsm

/-- Whether a byte is a blank that does not end a line: a carriage return, a space or a tab. -/
def Byte.isPadding (byte : UInt8) : Bool :=
  byte == 13 || byte == 32 || byte == 9

namespace Source

/-- The second source is the first one with padding put before some of its line feeds and at its
end. -/
inductive Padded : List UInt8 → List UInt8 → Prop
  /-- Padding at the end. -/
  | atEnd {padding : List UInt8} (soft : ∀ byte ∈ padding, Byte.isPadding byte = true) :
      Padded [] padding
  /-- Padding before a line feed. -/
  | atLineFeed {padding source padded : List UInt8}
      (soft : ∀ byte ∈ padding, Byte.isPadding byte = true) (rest : Padded source padded) :
      Padded (Byte.lineFeed :: source) (padding ++ Byte.lineFeed :: padded)
  /-- A byte of any kind without padding. -/
  | byte {source padded : List UInt8} (byte : UInt8) (rest : Padded source padded) :
      Padded (byte :: source) (byte :: padded)

/-- The source with a carriage return before each of its line feeds. -/
def withReturns (source : List UInt8) : List UInt8 :=
  source.flatMap fun byte => if byte = Byte.lineFeed then [13, Byte.lineFeed] else [byte]

/-- Carriage returns before line feeds are padding. -/
theorem padded_withReturns (source : List UInt8) : Padded source (withReturns source) := by
  induction source with
  | nil => exact .atEnd (by simp [withReturns])
  | cons byte source ih =>
    rw [withReturns, List.flatMap_cons]
    by_cases ends : byte = Byte.lineFeed
    · have soft : ∀ byte ∈ [(13 : UInt8)], Byte.isPadding byte = true := List.all_eq_true.mp rfl
      subst ends
      exact .atLineFeed soft ih
    · rw [if_neg ends]
      exact .byte byte ih

end Source

/-- Padding divides words and does not end a line. -/
theorem Byte.of_isPadding {byte : UInt8} (soft : isPadding byte = true) :
    isBlank byte = true ∧ byte ≠ lineFeed := by
  simp only [isPadding, Bool.or_eq_true, beq_iff_eq] at soft
  rcases soft with (rfl | rfl) | rfl <;> decide

namespace Mode

variable {padding : List UInt8}

/-- Bytes that lead to the same words from everywhere do so behind the same byte as well. -/
theorem scan_cons_congr {bytes others : List UInt8}
    (same : ∀ (mode : Mode) (position : Position),
      mode.scan position others = mode.scan position bytes)
    (byte : UInt8) (mode : Mode) (position : Position) :
    mode.scan position (byte :: others) = mode.scan position (byte :: bytes) := by
  rw [scan, scan]
  cases mode.read position byte with
  | onward later => exact same later _
  | complete word => exact congrArg (word :: ·) (same .blank _)

/-- In a comment nothing is found before its line feed but the word that it has cut short. -/
theorem scan_comment {bytes : List UInt8} (inline : Byte.lineFeed ∉ bytes) (held : Option Word)
    (position : Position) : (Mode.comment held).scan position bytes = held.toList := by
  induction bytes generalizing position with
  | nil => rfl
  | cons byte bytes ih =>
    rw [List.mem_cons, not_or] at inline
    have read : (Mode.comment held).read position byte = .onward (.comment held) := by
      simp [Mode.read, Ne.symm inline.1]
    rw [scan, read]
    exact ih inline.2 (position.advance byte)

/-- Padding holds no line feed. -/
theorem lineFeed_not_mem_padding (soft : ∀ byte ∈ padding, Byte.isPadding byte = true) :
    Byte.lineFeed ∉ padding :=
  fun there => (Byte.of_isPadding (soft _ there)).2 rfl

/-- Padding lets a mode hand out the word that it holds and nothing else. -/
theorem scan_padding (soft : ∀ byte ∈ padding, Byte.isPadding byte = true) (mode : Mode)
    (position : Position) : mode.scan position padding = mode.scan position [] := by
  have blanks : ∀ byte ∈ padding, Byte.isBlank byte = true :=
    fun byte there => (Byte.of_isPadding (soft byte there)).1
  have passed : Mode.blank.scan position (padding ++ []) =
      Mode.blank.scan (position.advanceAll padding) [] := scan_blanks blanks position
  rw [List.append_nil] at passed
  cases mode with
  | blank => exact passed
  | word unfinished =>
    have first : ∀ byte ∈ padding.head?, Byte.isBlank byte = true :=
      fun byte there => blanks byte (List.mem_of_mem_head? there)
    rw [scan_word_of_blank first, passed]
    rfl
  | comment held => exact scan_comment (lineFeed_not_mem_padding soft) held position

/-- Padding before a line feed is not seen, and the columns that it takes up are forgotten. -/
theorem scan_padding_lineFeed (soft : ∀ byte ∈ padding, Byte.isPadding byte = true) (mode : Mode)
    (position : Position) (bytes : List UInt8) :
    mode.scan position (padding ++ Byte.lineFeed :: bytes) =
      mode.scan position (Byte.lineFeed :: bytes) := by
  have inline : padding.count Byte.lineFeed = 0 :=
    List.count_eq_zero.mpr (lineFeed_not_mem_padding soft)
  have below : (position.advanceAll padding).advance Byte.lineFeed =
      position.advance Byte.lineFeed := by
    rw [Position.advance_lineFeed, Position.advance_lineFeed, Position.line_advanceAll, inline,
      Nat.add_zero]
  have alone := mode.scan_lineFeed position [] bytes
  rw [List.nil_append, Position.advanceAll_nil] at alone
  rw [scan_lineFeed, scan_padding soft, below, alone]

end Mode

/-- From any mode and position on, the same words are found with padding as without. -/
theorem Source.Padded.scan_eq {source padded : List UInt8} (pads : Padded source padded)
    (mode : Mode) (position : Position) :
    mode.scan position padded = mode.scan position source := by
  induction pads generalizing mode position with
  | atEnd soft => exact Mode.scan_padding soft mode position
  | atLineFeed soft rest ih =>
    rw [Mode.scan_padding_lineFeed soft]
    exact Mode.scan_cons_congr ih Byte.lineFeed mode position
  | byte byte rest ih => exact Mode.scan_cons_congr ih byte mode position

namespace Compilation

/-- Padding before line feeds and at the end of a source is not seen: the words are the same, each
at its position, and whether the source is compiled in memory or as it is delivered, the result is
the same, with its diagnostics or its failure and all that is logged. Carriage returns before all
line feeds are such padding. -/
theorem padding_unseen (source : List UInt8) :
    (∀ padded, Source.Padded source padded →
      Word.allOfBytes padded = Word.allOfBytes source ∧
      ofBytes padded = ofBytes source ∧
      ∀ parts others rest more, Delivery.Carries parts source → Delivery.Carries others padded →
        (∀ delivery ∈ rest, Delivery.isEnd delivery = true) →
        (∀ delivery ∈ more, Delivery.isEnd delivery = true) →
          ofDeliveries (others ++ more) = ofDeliveries (parts ++ rest)) ∧
    Source.Padded source (Source.withReturns source) := by
  refine ⟨?_, Source.padded_withReturns source⟩
  intro padded pads
  have words : Word.allOfBytes padded = Word.allOfBytes source := by
    rw [Word.allOfBytes_eq_scan, Word.allOfBytes_eq_scan, pads.scan_eq]
  refine ⟨words, by rw [ofBytes, ofBytes, words], ?_⟩
  intro parts others rest more carries carriesOthers ends endsOthers
  rw [ofDeliveries, ofDeliveries, Stream.words_of_carries carries ends,
    Stream.words_of_carries carriesOthers endsOthers, words]

/-- Two lines, the first one with a comment that cuts a word short. -/
def ragged : List UInt8 :=
  "7 fro/b\n.s".toUTF8.data.toList

/-- The same lines with a carriage return inside the comment and blanks at the end. -/
def raggedPadded : List UInt8 :=
  "7 fro/b \r\n.s\t ".toUTF8.data.toList

/-- The padding takes up columns of the first line only. -/
theorem padding_unseen_ragged :
    Word.allOfBytes raggedPadded = [⟨"7", ⟨1, 1⟩⟩, ⟨"fro", ⟨1, 3⟩⟩, ⟨".s", ⟨2, 1⟩⟩] ∧
      ofBytes raggedPadded = ofBytes ragged := by
  have inside : ∀ byte ∈ [(32 : UInt8), 13], Byte.isPadding byte = true := List.all_eq_true.mp rfl
  have behind : ∀ byte ∈ [(9 : UInt8), 32], Byte.isPadding byte = true := List.all_eq_true.mp rfl
  have lower : Source.Padded [46, 115] [46, 115, 9, 32] := .byte 46 (.byte 115 (.atEnd behind))
  have pads : Source.Padded ragged raggedPadded :=
    .byte 55 (.byte 32 (.byte 102 (.byte 114 (.byte 111 (.byte 47 (.byte 98
      (.atLineFeed inside lower)))))))
  have words : Word.allOfBytes ragged = [⟨"7", ⟨1, 1⟩⟩, ⟨"fro", ⟨1, 3⟩⟩, ⟨".s", ⟨2, 1⟩⟩] := by
    rw [Word.allOfBytes_eq_scan]
    decide
  obtain ⟨same, compiled, -⟩ := (padding_unseen ragged).1 raggedPadded pads
  exact ⟨same.trans words, compiled⟩

end Compilation

end ForthAsm
