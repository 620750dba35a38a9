/-!
# Faults in patterns

Why a text is no pattern, and where. A fault is shown below the text: the characters that it
is about are underlined, and a text of several lines is shown with numbered lines.
-/

namespace ForthAsm.Pattern

/-- A stretch of a text, by the number of characters before its start and before its end. -/
structure Span where
  /-- The number of characters before it. -/
  start : Nat
  /-- The number of characters up to its end. -/
  stop : Nat
  deriving DecidableEq, Repr

/-- What can be wrong with a pattern; `Problem.message` explains each case. -/
inductive Problem where
  | backreference
  | caseTable
  | classEscape
  | classRange
  | classRangeEnd
  | classUnclosed
  | countEmpty
  | countOrder
  | countTooLarge
  | countUnclosed
  | escapeUnfinished
  | escapeUnknown
  | flagDuplicate
  | flagMissing
  | flagUnknown
  | groupNameCharacter
  | groupNameDuplicate
  | groupNameEmpty
  | groupNameUnclosed
  | groupUnclosed
  | groupUnopened
  | hexDigit
  | hexEmpty
  | hexNoCharacter
  | invalidEncoding
  | lookAround
  | negationDangling
  | negationRepeated
  | nestedTooDeep
  | operandMissing
  | propertyName
  | propertyTable
  | propertyValue
  | scriptsNotAllowed
  | wordClassTable
  | wordEdgeUnclosed
  | wordEdgeUnfinished
  | wordEdgeUnknown
  deriving DecidableEq, Repr

/-- How many levels of a pattern may stand inside each other. -/
def deepest : Nat := 250

/-- What is wrong, in words. -/
def Problem.message : Problem → String
  | backreference => "backreferences are not supported"
  | caseTable =>
    "Unicode-aware case insensitivity matching is not available " ++
      "(make sure the unicode-case feature is enabled)"
  | classEscape => "invalid escape sequence found in character class"
  | classRange => "invalid character class range, the start must be <= the end"
  | classRangeEnd => "invalid range boundary, must be a literal"
  | classUnclosed => "unclosed character class"
  | countEmpty => "repetition quantifier expects a valid decimal"
  | countOrder => "invalid repetition count range, the start must be <= the end"
  | countTooLarge => "decimal literal invalid"
  | countUnclosed => "unclosed counted repetition"
  | escapeUnfinished => "incomplete escape sequence, reached end of pattern prematurely"
  | escapeUnknown => "unrecognized escape sequence"
  | flagDuplicate => "duplicate flag"
  | flagMissing => "expected flag but got end of regex"
  | flagUnknown => "unrecognized flag"
  | groupNameCharacter => "invalid capture group character"
  | groupNameDuplicate => "duplicate capture group name"
  | groupNameEmpty => "empty capture group name"
  | groupNameUnclosed => "unclosed capture group name"
  | groupUnclosed => "unclosed group"
  | groupUnopened => "unopened group"
  | hexDigit => "invalid hexadecimal digit"
  | hexEmpty => "hexadecimal literal empty"
  | hexNoCharacter => "hexadecimal literal is not a Unicode scalar value"
  | invalidEncoding => "pattern can match invalid UTF-8"
  | lookAround => "look-around, including look-ahead and look-behind, is not supported"
  | negationDangling => "dangling flag negation operator"
  | negationRepeated => "flag negation operator repeated"
  | nestedTooDeep =>
    "exceed the maximum number of nested parentheses/brackets (" ++ toString deepest ++ ")"
  | operandMissing => "repetition operator missing expression"
  | propertyName => "invalid Unicode character class"
  | propertyTable => "Unicode property not found"
  | propertyValue => "Unicode property value not found"
  | scriptsNotAllowed => "Unicode not allowed here"
  | wordClassTable =>
    "Unicode-aware Perl class not found (make sure the unicode-perl feature is enabled)"
  | wordEdgeUnclosed =>
    "special word boundary assertion is either unclosed or contains an invalid character"
  | wordEdgeUnfinished =>
    "found either the beginning of a special word boundary or a bounded repetition on a " ++
      "\\b with an opening brace, but no closing brace"
  | wordEdgeUnknown =>
    "unrecognized special word boundary assertion, valid choices are: start, end, " ++
      "start-half or end-half"

/-- Something wrong at a place of a pattern. -/
structure Fault where
  /-- What is wrong. -/
  problem : Problem
  /-- The characters that are wrong. -/
  span : Span
  /-- Earlier characters that they do not agree with. -/
  earlier : Option Span
  deriving DecidableEq, Repr

/-- A place in a text of several lines, both numbers counted from one. -/
structure Mark where
  /-- The number of the line. -/
  line : Nat
  /-- The number of the character in its line. -/
  column : Nat
  deriving DecidableEq, Repr

/-- The place behind some characters. -/
def Mark.behind (characters : List Char) : Mark :=
  characters.foldl (fun mark character =>
    if character = '\n' then ⟨mark.line + 1, 1⟩ else ⟨mark.line, mark.column + 1⟩) ⟨1, 1⟩

/-- The lines of a text, without what ends them. An empty rest behind the last line end is no
line. -/
def lines : List Char → List (List Char)
  | [] => []
  | '\n' :: characters => [] :: lines characters
  | '\r' :: '\n' :: characters => [] :: lines characters
  | character :: characters =>
    match lines characters with
    | [] => [[character]]
    | first :: others => (character :: first) :: others

/-- A text of some equal characters. -/
def times (count : Nat) (character : Char) : String :=
  String.ofList (List.replicate count character)

/-- The columns from which to which something is underlined. -/
abbrev Underline := Nat × Nat

/-- Underline columns of a line, from a column on. -/
def underlines (column : Nat) : List Underline → String
  | [] => ""
  | (first, last) :: others =>
    let length := max 1 (last - first)
    times (first - column) ' ' ++ times length '^' ++ underlines (max first column + length) others

/-- A line of a text, and below it the underlines of that line, if it has any. -/
def shownLine (margin : String) (line : List Char) (marked : List Underline) : String :=
  margin ++ String.ofList line ++ "\n" ++
    if marked.isEmpty then "" else times margin.length ' ' ++ underlines 1 marked ++ "\n"

namespace Fault

/-- The stretches that a fault is about, from left to right. -/
def spans (fault : Fault) : List Span :=
  fault.earlier.toList ++ [fault.span]

/-- The stretches of a text that a fault is about, as marks. -/
def marks (fault : Fault) (text : List Char) : List (Mark × Mark) :=
  fault.spans.map fun span => (.behind (text.take span.start), .behind (text.take span.stop))

/-- The margin of a line: blanks, or its number if there is more than one line. -/
def margin (count number : Nat) : String :=
  if count ≤ 1 then "    "
  else
    let width := (toString count).length
    times (width - (toString number).length) ' ' ++ toString number ++ ": "

/-- The text of a pattern with all that a fault is about underlined, as far as it stands on
one line. -/
def underlined (fault : Fault) (text : List Char) : String :=
  let count := (lines text).length + if text.getLast? = some '\n' then 1 else 0
  let marks := (fault.marks text).filter fun (first, last) => first.line = last.line
  ((lines text).zipIdx 1).foldl (fun shown (line, number) =>
    shown ++ shownLine (margin count number) line
      ((marks.filter fun (first, _) => first.line = number).map fun (first, last) =>
        (first.column, last.column))) ""

/-- What a fault is about and does not stand on one line. -/
def across (fault : Fault) (text : List Char) : String :=
  ((fault.marks text).filter fun (first, last) => first.line ≠ last.line).foldl
    (fun shown (first, last) =>
      shown ++ "on line " ++ toString first.line ++ " (column " ++ toString first.column ++
        ") through line " ++ toString last.line ++ " (column " ++ toString (last.column - 1) ++
        ")\n") ""

/-- The full text of a fault in a pattern. -/
def message (fault : Fault) (text : List Char) : String :=
  let rule := times 79 '~' ++ "\n"
  "regex parse error:\n" ++
    (if '\n' ∈ text then rule ++ fault.underlined text ++ rule ++ fault.across text
      else fault.underlined text) ++
    "error: " ++ fault.problem.message

end Fault

end ForthAsm.Pattern
