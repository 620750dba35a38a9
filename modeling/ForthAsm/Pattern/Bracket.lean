import ForthAsm.Pattern.Atom

/-!
# Reading brackets

A class between brackets holds characters, ranges, named sets and further classes. Two ampersands,
dashes or tildes join what stands before them with what follows, from left to right.
-/

namespace ForthAsm.Pattern.Reader

/-- The join that two equal characters stand for. -/
def join? : List Char → Option Join
  | '&' :: '&' :: _ => some .intersection
  | '-' :: '-' :: _ => some .difference
  | '~' :: '~' :: _ => some .symmetricDifference
  | _ => none

/-- The set with a name between colons, whether all other characters are meant, and the number
of all characters up to the bracket behind it. -/
def namedSet? (characters : List Char) : Option (CharacterSet × Bool × Nat) :=
  match characters with
  | '[' :: ':' :: inside =>
    let negated := inside.head? = some '^'
    let inside := if negated then inside.drop 1 else inside
    let name := inside.takeWhile (· ≠ ':')
    if [':', ']'].isPrefixOf (inside.drop name.length) then
      (CharacterSet.named? (String.ofList name)).map fun set =>
        (set, negated, name.length + 4 + if negated then 1 else 0)
    else none
  | _ => none

/-- Read a set that is given by its name, if there is one. -/
def readNamed : Reader (Option Members) := do
  match namedSet? (← get).rest with
  | none => return none
  | some (set, negated, length) =>
    let start ← here
    skip length
    return some (.named ⟨start, start + length⟩ negated set)

/-- Read one end of a range, or a member that is no range. -/
def readMemberAtom (character : Char) : Reader (Atom × Span) :=
  if character = '\\' then readEscape else readLiteral character

/-- A member that is no range. -/
def memberOf (atom : Atom) (span : Span) : Reader Members :=
  match atom with
  | .any | .boundary _ => fail .classEscape span.start span.stop
  | atom => return .atom span atom

/-- The character at one end of a range. -/
def rangeEnd (atom : Atom) (span : Span) : Reader RangeEnd :=
  match atom with
  | .literal character isByte => return ⟨character, isByte, span⟩
  | _ => fail .classRangeEnd span.start span.stop

/-- The first sign behind a dash. Blanks may mean nothing, and then the sign that starts a
comment is passed over as well, though not the comment. -/
def signBehind (spaced : Bool) (characters : List Char) : Option Char :=
  if spaced then
    match characters.dropWhile Blank.isBlank with
    | '#' :: comment => (comment.dropWhile Blank.isBlank).head?
    | signs => signs.head?
  else characters.head?

/-- Whether a dash that comes next stands between the ends of a range: it does not before a
closing bracket and before another dash. -/
def isRangeDash (spaced : Bool) : List Char → Bool
  | '-' :: characters =>
    let sign := signBehind spaced characters
    sign ≠ some ']' && sign ≠ some '-'
  | _ => false

/-- Read a member of a class that starts with a character, and whose opening stands between
two places. -/
def readMember (opening : Span) (character : Char) : Reader Members := do
  let (first, firstSpan) ← readMemberAtom character
  skipBlanks
  if (← peek).isNone then fail .classUnclosed opening.start opening.stop
  if !isRangeDash (← get).spaced (← get).rest then return (← memberOf first firstSpan)
  match ← advanceOver with
  | none => fail .classUnclosed opening.start opening.stop
  | some character =>
    let (last, lastSpan) ← readMemberAtom character
    let low ← rangeEnd first firstSpan
    let high ← rangeEnd last lastSpan
    if high.character < low.character then fail .classRange firstSpan.start lastSpan.stop
    return .range low high

/-- A class of which not all is read yet. -/
structure OpenClass where
  /-- From the bracket to the first member. -/
  opening : Span
  /-- Whether the class is meant to hold all other characters. -/
  negated : Bool
  /-- What stands before the last two signs that join, and how they join it. -/
  pending : Option (Members × Join)
  /-- Where the members behind those signs start. -/
  start : Nat
  /-- The members behind those signs, last one first. -/
  items : List Members

namespace OpenClass

/-- A class with one more member. -/
def add (opened : OpenClass) (item : Members) : OpenClass :=
  { opened with items := item :: opened.items }

/-- All that is read of a class. -/
def members (opened : OpenClass) : Members :=
  let last := Members.ofItems opened.start opened.items.reverse
  match opened.pending with
  | none => last
  | some (before, join) => .joined join before last

/-- A class behind signs that join what is read with what follows from a place on. -/
def joinAt (opened : OpenClass) (join : Join) (place : Nat) : OpenClass :=
  { opened with pending := some (opened.members, join), start := place, items := [] }

end OpenClass

/-- Read dashes that stand for themselves, behind a bracket at a place. -/
def readDashes (start : Nat) : Nat → List Members → Reader (List Members)
  | 0, found => return found
  | fuel + 1, found => do
    if (← peek) ≠ some '-' then return found
    let (atom, span) ← readLiteral '-'
    skipBlanks
    if (← peek).isNone then fail .classUnclosed start start
    readDashes start fuel (.atom span atom :: found)

/-- Read the start of a class, from its bracket on. Dashes or a closing bracket at its start
stand for themselves. -/
def readOpening : Reader OpenClass := do
  let start ← here
  let first ← advanceOver
  if first.isNone then fail .classUnclosed start (← here)
  let negated := first = some '^'
  if negated then
    if (← advanceOver).isNone then fail .classUnclosed start (← here)
  let contents ← here
  let dashes ← readDashes start (← plenty) []
  if dashes.isEmpty && (← peek) = some ']' then
    let (atom, span) ← readLiteral ']'
    skipBlanks
    if (← peek).isNone then fail .classUnclosed start (← here)
    return ⟨⟨start, ← here⟩, negated, none, contents, [.atom span atom]⟩
  return ⟨⟨start, ← here⟩, negated, none, contents, dashes⟩

/-- Read the members of a class up to its closing bracket, inside of classes that are open
too. -/
def readMembers : Nat → OpenClass → List OpenClass → Reader Expression
  | 0, opened, _ => fail .classUnclosed opened.opening.start opened.opening.stop
  | fuel + 1, opened, outer => do
    skipBlanks
    match ← peek with
    | none => fail .classUnclosed opened.opening.start opened.opening.stop
    | some ']' =>
      skip 1
      let span := ⟨opened.opening.start, ← here⟩
      match outer with
      | [] => return .bracket span opened.negated opened.members
      | around :: outer =>
        readMembers fuel (around.add (.bracket span opened.negated opened.members)) outer
    | some '[' =>
      match ← readNamed with
      | some item => readMembers fuel (opened.add item) outer
      | none => readMembers fuel (← readOpening) (opened :: outer)
    | some character =>
      match join? (← get).rest with
      | some join =>
        skip 2
        readMembers fuel (opened.joinAt join (← here)) outer
      | none =>
        let item ← readMember opened.opening character
        readMembers fuel (opened.add item) outer

/-- Read a class, from its bracket on. -/
def readClass : Reader Expression := do
  readMembers (← plenty) (← readOpening) []

end ForthAsm.Pattern.Reader
