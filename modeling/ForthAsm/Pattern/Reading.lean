import ForthAsm.Pattern.Fault
import ForthAsm.Text.Blank

/-!
# Reading a pattern

What a reader of a pattern keeps while it goes through the text from left to right, and the
small steps that it takes. A text that is no pattern ends the reading at once.
-/

namespace ForthAsm.Pattern

/-- How far the reading of a pattern has come. -/
structure Reading where
  /-- The characters that are not read yet. -/
  rest : List Char
  /-- The number of characters that are. -/
  place : Nat
  /-- The number of all characters. -/
  size : Nat
  /-- Whether blanks and comments mean nothing. -/
  spaced : Bool
  /-- The names of groups so far, and where they stand. -/
  names : List (String × Span)

/-- A step of reading. -/
abbrev Reader := StateT Reading (Except Fault)

namespace Reader

/-- The reading at the start of a text. -/
def start (text : List Char) : Reading :=
  ⟨text, 0, text.length, false, []⟩

/-- Find a fault. -/
def fail {α : Type} (problem : Problem) (start stop : Nat) : Reader α :=
  throw ⟨problem, ⟨start, stop⟩, none⟩

/-- Find a fault that is about earlier characters too. -/
def failWith {α : Type} (problem : Problem) (start stop : Nat) (earlier : Span) : Reader α :=
  throw ⟨problem, ⟨start, stop⟩, some earlier⟩

/-- The number of characters that are read. -/
def here : Reader Nat := do
  return (← get).place

/-- The next character. -/
def peek : Reader (Option Char) := do
  return (← get).rest.head?

/-- Pass over some characters. -/
def skip (count : Nat) : Reader Unit :=
  modify fun reading =>
    { reading with rest := reading.rest.drop count, place := reading.place + count }

/-- Let blanks and comments mean nothing from here on, or something. -/
def setSpaced (spaced : Bool) : Reader Unit :=
  modify fun reading => { reading with spaced }

/-- Pass over one character and look at the next one. -/
def advance : Reader (Option Char) := do
  skip 1
  peek

/-- Pass over a text, if it comes next. -/
def skipText (text : String) : Reader Bool := do
  if text.toList.isPrefixOf (← get).rest then
    skip text.length
    return true
  else return false

/-- A number of steps that no loop of the reading can use up, as each of its rounds reads a
character. -/
def plenty : Reader Nat := do
  return (← get).size + 1

/-- The number of blanks and characters of comments at the start of a text, which may start
inside a comment, added to a number. -/
def blankLength (comment : Bool) (count : Nat) : List Char → Nat
  | [] => count
  | character :: characters =>
    if comment then blankLength (character ≠ '\n') (count + 1) characters
    else if character = '#' then blankLength true (count + 1) characters
    else if Blank.isBlank character then blankLength false (count + 1) characters
    else count

/-- Pass over blanks and comments where they mean nothing. -/
def skipBlanks : Reader Unit := do
  if (← get).spaced then skip (blankLength false 0 (← get).rest)

/-- Pass over one character and over blanks that mean nothing, and look at the next
character. -/
def advanceOver : Reader (Option Char) := do
  skip 1
  skipBlanks
  peek

/-- The characters of a kind at the start of a text, last one first, and the number of all
characters up to the first one of another kind. Blanks and comments behind each of them may
mean nothing. -/
def kindAtStart (kind : Char → Bool) (spaced : Bool) (comment : Bool) (count : Nat)
    (found : List Char) : List Char → List Char × Nat
  | [] => (found, count)
  | character :: characters =>
    let skipping := spaced && !found.isEmpty
    if comment then
      kindAtStart kind spaced (character ≠ '\n') (count + 1) found characters
    else if skipping && character = '#' then
      kindAtStart kind spaced true (count + 1) found characters
    else if skipping && Blank.isBlank character then
      kindAtStart kind spaced false (count + 1) found characters
    else if kind character then
      kindAtStart kind spaced false (count + 1) (character :: found) characters
    else (found, count)

/-- Read all characters of a kind that come next, and pass over blanks that mean nothing
behind each. -/
def readAll (kind : Char → Bool) : Reader (List Char) := do
  let reading ← get
  let (found, count) := kindAtStart kind reading.spaced false 0 [] reading.rest
  skip count
  return found.reverse

end Reader

end ForthAsm.Pattern
