import ForthAsm.Pattern.CharacterSet
import Std.Data.HashSet

/-!
# Patterns

A pattern describes stretches of a text. `Pattern.ends` follows a pattern from a list of
places at once and gives the places at which it can end; a text matches if the pattern ends
anywhere. A repetition needs no more rounds than the text has places: a round that moves on
uses up a place, and a round that does not can be left out or done again.

Main statement: `same_iff`, patterns are compared part by part.
-/

namespace ForthAsm

/-- A condition on a place, given by the characters before and after it. -/
inductive Boundary where
  /-- The start of the text. -/
  | textStart
  /-- The end of the text. -/
  | textEnd
  /-- The start of a line. -/
  | lineStart
  /-- The end of a line. -/
  | lineEnd
  /-- The start of a line, where lines end in a carriage return, a line feed or both. -/
  | returnStart
  /-- The end of a line, where lines end in a carriage return, a line feed or both. -/
  | returnEnd
  /-- The start or the end of a word. -/
  | wordEdge
  /-- Neither the start nor the end of a word. -/
  | noWordEdge
  /-- The start of a word. -/
  | wordStart
  /-- The end of a word. -/
  | wordEnd
  /-- No word goes on from before. -/
  | wordStartHalf
  /-- No word goes on behind. -/
  | wordEndHalf
  deriving DecidableEq, Repr

namespace Boundary

/-- Whether a character is there and words are made of it. -/
def inWord : Option Char → Bool
  | none => false
  | some character => CharacterSet.wordCharacters.contains character

/-- Whether a condition holds between two characters, each of which may be missing. -/
def holds (before after : Option Char) : Boundary → Bool
  | textStart => before.isNone
  | textEnd => after.isNone
  | lineStart => before.isNone || before = some '\n'
  | lineEnd => after.isNone || after = some '\n'
  | returnStart =>
    before.isNone || before = some '\n' || (before = some '\r' && after ≠ some '\n')
  | returnEnd =>
    after.isNone || after = some '\r' || (after = some '\n' && before ≠ some '\r')
  | wordEdge => inWord before != inWord after
  | noWordEdge => inWord before == inWord after
  | wordStart => !inWord before && inWord after
  | wordEnd => inWord before && !inWord after
  | wordStartHalf => !inWord before
  | wordEndHalf => !inWord after

/-- Whether a condition is about words. -/
def isAboutWords : Boundary → Bool
  | wordEdge | noWordEdge | wordStart | wordEnd | wordStartHalf | wordEndHalf => true
  | _ => false

end Boundary

/-- A description of stretches of a text. -/
inductive Pattern where
  /-- The empty stretch. -/
  | empty
  /-- The characters of a text, one after the other. -/
  | literal (text : List Char)
  /-- One character of a set. A set may be meant among the first 128 characters only. -/
  | one (set : CharacterSet) (narrow : Bool)
  /-- The empty stretch, at a place with a condition. Its words may be those of all scripts. -/
  | boundary (condition : Boundary) (scripts : Bool)
  /-- A stretch that is given a number. -/
  | group (number : Nat) (body : Pattern)
  /-- A stretch at least some number of times, and at most some number of times if there is
  a limit. Fewer or more times may be preferred. -/
  | repeated (body : Pattern) (least : Nat) (most : Option Nat) (short : Bool)
  /-- Stretches one after the other. -/
  | sequence (parts : List Pattern)
  /-- A stretch of one of several kinds. -/
  | choice (options : List Pattern)

namespace Pattern

mutual

/-- Whether two patterns are the same. -/
def same : Pattern → Pattern → Bool
  | empty, empty => true
  | literal left, literal right => left == right
  | one left leftNarrow, one right rightNarrow =>
    decide (left = right) && leftNarrow == rightNarrow
  | boundary left leftScripts, boundary right rightScripts =>
    decide (left = right) && leftScripts == rightScripts
  | group left leftBody, group right rightBody => left == right && same leftBody rightBody
  | repeated left leftLeast leftMost leftShort, repeated right rightLeast rightMost rightShort =>
    leftLeast == rightLeast && leftMost == rightMost && leftShort == rightShort && same left right
  | sequence left, sequence right => sameAll left right
  | choice left, choice right => sameAll left right
  | _, _ => false

/-- Whether two rows of patterns are the same. -/
def sameAll : List Pattern → List Pattern → Bool
  | [], [] => true
  | left :: lefts, right :: rights => same left right && sameAll lefts rights
  | _, _ => false

end

mutual

-- The parts of a row or a choice are patterns again, so the statement about rows of patterns
-- is proved along with the one about patterns.
/-- Patterns are the same exactly if they are equal. -/
theorem same_iff : (left right : Pattern) → (same left right ↔ left = right)
  | empty, right => by cases right <;> simp [same]
  | literal _, right => by cases right <;> simp [same]
  | one _ _, right => by cases right <;> simp [same]
  | boundary _ _, right => by cases right <;> simp [same]
  | group _ body, right => by cases right <;> simp [same, same_iff body]
  | repeated body _ _ _, right => by
    cases right <;> simp [same, same_iff body, and_comm, and_left_comm]
  | sequence parts, right => by cases right <;> simp [same, sameAll_iff parts]
  | choice options, right => by cases right <;> simp [same, sameAll_iff options]

/-- Rows of patterns are the same exactly if they are equal. -/
theorem sameAll_iff : (lefts rights : List Pattern) → (sameAll lefts rights ↔ lefts = rights)
  | [], rights => by cases rights <;> simp [sameAll]
  | left :: lefts, rights => by
    cases rights <;> simp [sameAll, same_iff left, sameAll_iff lefts]

end

/-- Whether two patterns are equal can be decided. -/
instance : DecidableEq Pattern := fun left right => decidable_of_iff _ (same_iff left right)

/-- The places of two lists. -/
def merge (left right : List Nat) : List Nat :=
  if right.isEmpty then left
  else
    let seen := Std.HashSet.ofList left
    left ++ right.filter (!seen.contains ·)

/-- Take steps from a list of places, exactly so many times. -/
def repeatSteps (step : List Nat → List Nat) : Nat → List Nat → List Nat
  | 0, places => places
  | count + 1, places => repeatSteps step count (step places)

/-- All places that up to so many steps lead to; each round starts from the places that the
last one found. -/
def grow (step : List Nat → List Nat) :
    Nat → Std.HashSet Nat → List Nat → List Nat → List Nat
  | 0, _, _, reached => reached
  | count + 1, seen, latest, reached =>
    let fresh := (step latest).filter (!seen.contains ·)
    if fresh.isEmpty then reached
    else grow step count (seen.insertMany fresh) fresh (fresh ++ reached)

/-- The places behind a character of a kind. -/
def behind (text : Array Char) (kind : Char → Bool) (places : List Nat) : List Nat :=
  (places.filter fun place => text[place]?.any kind).map (· + 1)

/-- For each place of a text, how many characters of a kind stand there one after the other. -/
def runLengths (kind : Char → Bool) (text : List Char) : List Nat :=
  text.foldr (fun character lengths =>
    (if kind character then lengths.headD 0 + 1 else 0) :: lengths) []

/-- The places behind so many characters of a kind. -/
def behindRun (text : Array Char) (kind : Char → Bool) (count : Nat) (places : List Nat) :
    List Nat :=
  let lengths := (runLengths kind text.toList).toArray
  (places.filter fun place => count ≤ lengths.getD place 0).map (· + count)

/-- The kind of character that a pattern takes, if it takes exactly one. -/
def kind? : Pattern → Option (Char → Bool)
  | literal [character] => some (· == character)
  | one set _ => some set.contains
  | _ => none

/-- Whether a condition holds at a place of a text. -/
def holdsAt (text : Array Char) (condition : Boundary) (place : Nat) : Bool :=
  condition.holds (if place = 0 then none else text[place - 1]?) text[place]?

mutual

/-- The places at which a pattern can end that starts at one of some places. -/
def ends (text : Array Char) : Pattern → List Nat → List Nat
  | empty, places => places
  | literal characters, places =>
    characters.foldl (fun places character => behind text (· == character) places) places
  | one set _, places => behind text set.contains places
  | boundary condition _, places => places.filter (holdsAt text condition)
  | group _ body, places => ends text body places
  | repeated body least most _, places =>
    let rounds := text.size + 1
    let reached := match body.kind? with
      | some kind => behindRun text kind (min least rounds) places
      | none => repeatSteps (ends text body) (min least rounds) places
    let more := match most with
      | none => rounds
      | some most => min (most - least) rounds
    grow (ends text body) more (.ofList reached) reached reached
  | sequence parts, places => endsInRow text parts places
  | choice options, places => endsOfAny text options places []

/-- The places at which a row of patterns can end. -/
def endsInRow (text : Array Char) : List Pattern → List Nat → List Nat
  | [], places => places
  | part :: parts, places => endsInRow text parts (ends text part places)

/-- The places at which one of several patterns can end, and those that are found already. -/
def endsOfAny (text : Array Char) : List Pattern → List Nat → List Nat → List Nat
  | [], _, found => found
  | option :: options, places, found =>
    endsOfAny text options places (merge found (ends text option places))

end

/-- Whether a pattern describes some stretch of a text. -/
def occursIn (pattern : Pattern) (text : String) : Bool :=
  let characters := text.toList.toArray
  !(pattern.ends characters (List.range (characters.size + 1))).isEmpty

end Pattern

end ForthAsm
