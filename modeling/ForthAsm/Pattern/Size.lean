import ForthAsm.Pattern.Build
import ForthAsm.Text.ByteRow

/-!
# Sizes of patterns

Two automata look for a pattern in the bytes of a text. One reads forwards and finds where the
pattern ends, and from there the other one reads backwards and finds where it starts. A pattern
is refused if one of them would be too large. Their sizes are worked out here without building
them: a state takes 32 bytes, an edge of a state that reads a byte takes 8 unless it is the only
one of a fixed text, and a branch of a state that reads nothing takes 4.

Repetitions are written out as often as they may be taken, so that sizes are products of counts.
-/

namespace ForthAsm.Pattern

/-- The way in which an automaton reads a text. -/
inductive Direction where
  /-- From the start of the text to its end. -/
  | forwards
  /-- From the end of the text to its start. -/
  | backwards
  deriving DecidableEq, Repr

namespace Size

/-- The size of a state. -/
def state : Nat := 32

/-- The size of an edge of a state that reads a byte. -/
def edge : Nat := 8

/-- The size of a branch of a state that reads nothing. -/
def branch : Nat := 4

/-- The size of a state that reads nothing and leads to two others. -/
def fork : Nat := state + 2 * branch

/-- Some sizes together. -/
def total (sizes : List Nat) : Nat :=
  sizes.foldl (· + ·) 0

/-! ## Sets -/

/-- The size of one byte of some ranges: a state with an edge for each range, and one behind
it. -/
def ofByte (ranges : Nat) : Nat := 2 * state + ranges * edge

/-- Rows with the same first range, as far as they follow each other. -/
def rowGroups (rows : List ByteRow) : List (List ByteRow) :=
  rows.splitBy fun left right => left.head? == right.head?

/-- The rows of bytes that are still to be read at each state, from the state on at which some
rows are; rows have no more bytes than a number says. -/
def rowStates : Nat → List ByteRow → List (List ByteRow)
  | 0, _ => []
  | depth + 1, rows =>
    if rows.all List.isEmpty then []
    else rows :: (rowGroups rows).flatMap fun group => rowStates depth (group.map List.tail)

/-- The size of a character that is read forwards. States at which the same rows are to be
read are one state. -/
def ofRowsForwards (rows : List ByteRow) : Nat :=
  let states := (rowStates 5 rows).eraseDups
  total (states.map fun rows => state + (rowGroups rows).length * edge) + state

/-- The first bytes of a row, from one byte up to all of them. -/
def starts (row : ByteRow) : List ByteRow :=
  (List.range row.length).map fun length => row.take (length + 1)

/-- The size of a character that is read backwards. Only rows that start alike share states. -/
def ofRowsBackwards (rows : List ByteRow) : Nat :=
  2 * state + rows.length * branch + (rows.flatMap starts).eraseDups.length * state

/-- The size of one character of a set. -/
def ofSet (direction : Direction) (set : CharacterSet) (narrow : Bool) : Nat :=
  if narrow || set.isNarrow then ofByte set.ranges.length
  else
    let rows := set.ranges.flatMap ByteRow.ofRange
    match direction with
    | .forwards => ofRowsForwards rows
    | .backwards => ofRowsBackwards rows

/-! ## Texts -/

/-- The bytes of a text, in the order in which they are read. -/
def bytes (direction : Direction) (text : List Char) : List UInt8 :=
  let bytes := text.flatMap String.utf8EncodeChar
  match direction with
  | .forwards => bytes
  | .backwards => bytes.reverse

/-- Words that are to be told apart byte by byte: what is left of each, in the order in which
they are preferred. -/
abbrev Words := List (List UInt8)

/-- Words between those that are over. -/
def runs (words : Words) : List Words :=
  words.foldr (fun word runs =>
    match word, runs with
    | [], runs => [] :: runs
    | word, [] => [[word]]
    | word, run :: runs => (word :: run) :: runs) [[]]

/-- The number of words that are over, where all before the first that is not count as one. -/
def overCount (words : Words) : Nat :=
  let early := words.takeWhile List.isEmpty
  min early.length 1 + ((words.drop early.length).filter List.isEmpty).length

/-- What is left of the words of a run behind each of their first bytes. -/
def behindFirst (run : Words) : List Words :=
  (run.filterMap List.head?).eraseDups.map fun byte =>
    (run.filter (·.head? == some byte)).map List.tail

/-- The size of the states at which a choice between words is, without those behind them. -/
def ofChoice (words : Words) : Nat :=
  let edges := ((runs words).map fun run => (behindFirst run).length).filter (0 < ·)
  let reading := total (edges.map fun count => if count = 1 then state else state + count * edge)
  let branches := edges.length + overCount words
  if branches = 1 then reading else reading + state + branches * branch

/-- The size of the states for several choices and all that is behind them, added to a number.
The words have fewer bytes than a number says. -/
def ofChoices : Nat → List Words → Nat → Nat
  | 0, _, size => size
  | _ + 1, [], size => size
  | fuel + 1, words :: others, size =>
    if words.all List.isEmpty then ofChoices fuel others size
    else
      let later := (runs words).flatMap behindFirst
      ofChoices fuel (later ++ others) (size + ofChoice words)

/-- The size of a choice between texts. -/
def ofTexts (direction : Direction) (texts : List (List Char)) : Nat :=
  let words := texts.map (bytes direction)
  ofChoices (2 * total (words.map List.length) + 1) [words] state

/-- The size of a text. -/
def ofText (text : List Char) : Nat :=
  text.foldl (fun size character => size + character.utf8Size * state) 0

/-! ## Repetitions -/

/-- The size of something that is repeated, from the size of one time and whether that is known
to take a character. -/
def ofRepeated (size : Nat) (moves : Bool) (least : Nat) (most : Option Nat) : Nat :=
  match least, most with
  | 0, some 1 => size + fork + state
  | 0, none => if moves then size + fork else size + 2 * fork + state
  | least, none => least * size + fork
  | least, some most =>
    if least = most then least * size
    else
      let fixed := if least = 0 then state else least * size
      fixed + state + (most - least) * (fork + size)

end Size

/-- The text of a pattern that is nothing else. -/
def text? : Pattern → Option (List Char)
  | literal text => some text
  | _ => none

mutual

/-- The size of the part of an automaton that finds a pattern. -/
def size (direction : Direction) : Pattern → Nat
  | empty => Size.state
  | literal text => Size.ofText text
  | one set narrow => Size.ofSet direction set narrow
  | boundary _ _ => Size.state
  | group _ body =>
    match direction with
    | .forwards => body.size direction + 2 * Size.state
    | .backwards => body.size direction
  | repeated body least most _ =>
    Size.ofRepeated (body.size direction) body.alwaysMoves least most
  | sequence parts => sizeOfAll direction parts 0
  | choice options =>
    match options.mapM text? with
    | some texts => Size.ofTexts direction texts
    | none =>
      2 * Size.state + options.length * Size.branch + sizeOfAll direction options 0

/-- The size of the parts of an automaton that find some patterns, added to a number. -/
def sizeOfAll (direction : Direction) : List Pattern → Nat → Nat
  | [], size => size
  | pattern :: patterns, size =>
    sizeOfAll direction patterns (size + pattern.size direction)

end

/-- Whether a pattern is found only where the reading of a text starts. -/
def isAnchored (pattern : Pattern) : Direction → Bool
  | .forwards => pattern.startsWith .textStart
  | .backwards => pattern.endsWith .textEnd

/-- The size of the automaton that finds a pattern. It passes over bytes before the pattern,
unless there can be none, and its last state says that the pattern is found. Forwards it also
keeps where the pattern starts and ends. -/
def automatonSize (pattern : Pattern) (direction : Direction) : Nat :=
  let before := if pattern.isAnchored direction then Size.state else Size.ofByte 1 + Size.fork
  let marks := match direction with
    | .forwards => 2 * Size.state
    | .backwards => 0
  before + marks + pattern.size direction + Size.state

end ForthAsm.Pattern
