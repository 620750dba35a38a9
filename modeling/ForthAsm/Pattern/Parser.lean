import ForthAsm.Pattern.Bracket
import ForthAsm.Text.Letter

/-!
# Reading expressions

A pattern is written as alternatives with bars between them. Each alternative is a row of
atoms, classes and groups, and any of these may be followed by signs or counts that say how
often it is repeated. Flags between a question mark and a closing parenthesis change how the
rest of the group is meant.
-/

namespace ForthAsm.Pattern

namespace Reader

/-- What an opening parenthesis starts. -/
inductive Opened where
  /-- The rest of the group around it is meant in another way. -/
  | change (change : FlagChange)
  /-- A group, which may be given a number and be meant in another way. -/
  | group (numbered : Bool) (change : FlagChange)

/-- Whether a character may stand in the name of a group, at its start or behind it. -/
def isNameCharacter (atStart : Bool) (character : Char) : Bool :=
  character = '_' || Letter.isLetter character ||
    (!atStart && (Letter.isNumber character || character = '.' || character = '[' ||
      character = ']'))

/-- Read the characters of the name of a group, behind some that are read already. -/
def readNameCharacters : Nat → List Char → Reader (List Char)
  | 0, _ => fail .groupNameUnclosed 0 0
  | fuel + 1, found => do
    match ← peek with
    | none => fail .groupNameUnclosed (← here) (← here)
    | some '>' => return found.reverse
    | some character =>
      if isNameCharacter found.isEmpty character then
        skip 1
        readNameCharacters fuel (character :: found)
      else fail .groupNameCharacter (← here) ((← here) + 1)

/-- Read the name of a group. -/
def readName : Reader Unit := do
  let start ← here
  let name := String.ofList (← readNameCharacters (← plenty) [])
  let stop ← here
  skip 1
  if name.isEmpty then fail .groupNameEmpty start start
  match (← get).names.lookup name with
  | some earlier => failWith .groupNameDuplicate start stop earlier
  | none =>
    modify fun reading => { reading with names := (name, ⟨start, stop⟩) :: reading.names }

/-- Read flags up to the colon or the parenthesis behind them. The letters that were seen are
kept with the places at which they stand; a dash among them says that the others are taken
back. -/
def readFlags : Nat → FlagChange → List (Char × Span) → Reader FlagChange
  | 0, _, _ => fail .flagMissing 0 0
  | fuel + 1, change, seen => do
    let place ← here
    match ← peek with
    | none => fail .flagMissing place place
    | some character =>
      if character = ':' || character = ')' then
        match seen with
        | ('-', dash) :: _ => fail .negationDangling dash.start dash.stop
        | _ => return change
      else
        let value := !(seen.any (·.1 = '-'))
        let changed ←
          if character = '-' then
            match seen.lookup '-' with
            | some earlier => failWith .negationRepeated place (place + 1) earlier
            | none => pure change
          else
            match Flag.ofLetter? character with
            | none => fail .flagUnknown place (place + 1)
            | some flag =>
              match seen.lookup character with
              | some earlier => failWith .flagDuplicate place (place + 1) earlier
              | none => pure ((flag, value) :: change)
        if (← advance).isNone then fail .flagMissing (← here) (← here)
        readFlags fuel changed ((character, ⟨place, place + 1⟩) :: seen)

/-- Read the start of a group, from its parenthesis on. -/
def readOpened : Reader Opened := do
  let start ← here
  let _ ← advanceOver
  for sign in ["?=", "?!", "?<=", "?<!"] do
    if ← skipText sign then fail .lookAround start (← here)
  let inner ← here
  if (← skipText "?P<") || (← skipText "?<") then
    if (← peek).isNone then fail .groupNameUnclosed (← here) (← here)
    readName
    return .group true []
  if !(← skipText "?") then return .group true []
  if (← peek).isNone then fail .groupUnclosed start (start + 1)
  let change ← readFlags (← plenty) [] []
  let last ← peek
  skip 1
  if last = some ')' then
    if change.isEmpty then fail .operandMissing inner inner else return .change change
  else return .group false change

/-- Read a number, which may have blanks around it. A fault is given back, since other faults
are found first. -/
def readDecimal : Reader (Except Fault Nat) := do
  skip ((← get).rest.takeWhile Blank.isBlank).length
  let start ← here
  let digits ← readAll Char.isDigit
  let stop ← here
  let _ ← readAll Blank.isBlank
  let value := digits.foldl (fun value digit => value * 10 + (digit.toNat - '0'.toNat)) 0
  if digits.isEmpty then return .error ⟨.countEmpty, ⟨start, stop⟩, none⟩
  else if UInt32.size ≤ value then return .error ⟨.countTooLarge, ⟨start, stop⟩, none⟩
  else return .ok value

/-- How often something is repeated. -/
structure Count where
  /-- The least number of times. -/
  least : Nat
  /-- The greatest number of times, if there is one. -/
  most : Option Nat
  /-- Whether fewer times are preferred. -/
  short : Bool

/-- Pass over a question mark, if the character that comes next is one. -/
def skipMark (next : Option Char) : Reader Bool := do
  if next = some '?' then
    skip 1
    return true
  else return false

/-- Read how often something is repeated, from the opening brace on. -/
def readCount : Reader Count := do
  let start ← here
  if (← advanceOver).isNone then fail .countUnclosed start (← here)
  let least ← readDecimal
  let (least, most) ← match ← peek with
    | none => fail .countUnclosed start (← here)
    | some ',' =>
      match ← advanceOver with
      | none => fail .countUnclosed start (← here)
      | some '\x7d' => pure (← liftExcept least, none)
      | some _ =>
        let least ← liftExcept least
        let most ← liftExcept (← readDecimal)
        pure (least, some most)
    | some _ =>
      let count ← liftExcept least
      pure (count, some count)
  if (← peek) ≠ some '\x7d' then fail .countUnclosed start (← here)
  let short ← skipMark (← advanceOver)
  match most with
  | some limit => if limit < least then fail .countOrder start (← here)
  | none => pure ()
  return ⟨least, most, short⟩
where
  /-- Find a fault that was put off. -/
  liftExcept (result : Except Fault Nat) : Reader Nat :=
    match result with
    | .ok value => return value
    | .error fault => throw fault

/-- How often the sign of a repetition says that something is repeated. -/
def sign? : Char → Option (Nat × Option Nat)
  | '?' => some (0, some 1)
  | '*' => some (0, none)
  | '+' => some (1, none)
  | _ => none

/-- Read a repetition that starts with a character, behind the parts of an alternative, last
one first. -/
def readRepetition (character : Char) (parts : List Expression) : Reader (List Expression) := do
  match parts with
  | [] => fail .operandMissing (← here) (← here)
  | body :: others =>
    if !body.isRepeatable then fail .operandMissing (← here) (← here)
    let count ← match sign? character with
      | some (least, most) => pure ⟨least, most, ← skipMark (← advance)⟩
      | none => readCount
    let span := ⟨body.span.start, ← here⟩
    return .repetition span body count.least count.most count.short :: others

/-- Alternatives of which not all is read yet. -/
structure OpenBody where
  /-- Where the first alternative starts. -/
  start : Nat
  /-- The alternatives that are read, last one first. -/
  options : List Expression
  /-- Where the alternative that is not read to its end starts. -/
  current : Nat
  /-- The parts of it that are read, last one first. -/
  parts : List Expression

namespace OpenBody

/-- Nothing is read yet, from a place on. -/
def startingAt (place : Nat) : OpenBody := ⟨place, [], place, []⟩

/-- One more part is read. -/
def add (body : OpenBody) (part : Expression) : OpenBody :=
  { body with parts := part :: body.parts }

/-- The alternative that is read last, up to a place. -/
def last (body : OpenBody) (place : Nat) : Expression :=
  .ofParts ⟨body.current, place⟩ body.parts.reverse

/-- An alternative ends at a place, and the next one starts behind it. -/
def divideAt (body : OpenBody) (place : Nat) : OpenBody :=
  { body with options := body.last place :: body.options, current := place + 1, parts := [] }

/-- All that is read, up to a place. -/
def close (body : OpenBody) (place : Nat) : Expression :=
  match body.options with
  | [] => body.last place
  | options => .alternatives ⟨body.start, place⟩ (body.last place :: options).reverse

end OpenBody

/-- A group of which not all is read yet. -/
structure OpenGroup where
  /-- Where its parenthesis stands. -/
  start : Nat
  /-- Whether it is given a number. -/
  numbered : Bool
  /-- In which other way it is meant. -/
  change : FlagChange
  /-- Whether blanks mean nothing around it. -/
  spaced : Bool
  /-- What is read around it. -/
  around : OpenBody

/-- Read alternatives up to the end of the pattern, inside of groups that are open. -/
def readBody : Nat → OpenBody → List OpenGroup → Reader Expression
  | 0, _, _ => fail .groupUnclosed 0 0
  | fuel + 1, body, groups => do
    skipBlanks
    let place ← here
    match ← peek, groups with
    | none, [] => return body.close place
    | none, inner :: _ => fail .groupUnclosed inner.start (inner.start + 1)
    | some ')', [] => fail .groupUnopened place (place + 1)
    | some ')', inner :: outer =>
      skip 1
      setSpaced inner.spaced
      let closed := .group ⟨inner.start, place + 1⟩ inner.numbered inner.change (body.close place)
      readBody fuel (inner.around.add closed) outer
    | some '|', _ =>
      skip 1
      readBody fuel (body.divideAt place) groups
    | some '(', _ =>
      let spaced := (← get).spaced
      match ← readOpened with
      | .change change =>
        setSpaced (change.apply .spaced spaced)
        readBody fuel (body.add (.flags ⟨place, ← here⟩ change)) groups
      | .group numbered change =>
        setSpaced (change.apply .spaced spaced)
        readBody fuel (.startingAt (← here)) (⟨place, numbered, change, spaced, body⟩ :: groups)
    | some '[', _ =>
      readBody fuel (body.add (← readClass)) groups
    | some character, _ =>
      if character = '\x7b' || (sign? character).isSome then
        let parts ← readRepetition character body.parts
        readBody fuel { body with parts } groups
      else
        let (atom, span) ← readAtom character
        readBody fuel (body.add (.atom span atom)) groups

end Reader

/-- The expression that is written in a text. -/
def Expression.ofText (text : List Char) : Except Fault Expression :=
  (Reader.readBody (text.length + 1) (.startingAt 0) []).run' (Reader.start text)

end ForthAsm.Pattern
