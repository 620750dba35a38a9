import ForthAsm.Pattern.Basic

/-!
# Building patterns

Patterns are put together in a plain form. Rows and choices hold no rows and choices of their
own, characters that follow each other are one text, a choice between single characters is a
set, what all options of a choice start with stands before it, and a repetition that says
nothing is left out. How large a pattern is and what it needs is asked of this form.
-/

namespace ForthAsm.Pattern

mutual

/-- Whether a pattern or some part of it passes a test. -/
def anyPart (test : Pattern → Bool) : Pattern → Bool
  | group number body => test (group number body) || anyPart test body
  | repeated body least most short =>
    test (repeated body least most short) || anyPart test body
  | sequence parts => test (sequence parts) || anyPartOfAny test parts
  | choice options => test (choice options) || anyPartOfAny test options
  | pattern => test pattern

/-- Whether one of some patterns or some part of them passes a test. -/
def anyPartOfAny (test : Pattern → Bool) : List Pattern → Bool
  | [] => false
  | pattern :: patterns => anyPart test pattern || anyPartOfAny test patterns

end

mutual

/-- Whether a pattern takes no character, whatever it describes. -/
def staysInPlace : Pattern → Bool
  | empty => true
  | boundary _ _ => true
  | group _ body => staysInPlace body
  | repeated body _ most _ => most.isSome && staysInPlace body
  | sequence parts => allStayInPlace parts
  | choice options => allStayInPlace options
  | _ => false

/-- Whether none of some patterns takes a character. -/
def allStayInPlace : List Pattern → Bool
  | [] => true
  | pattern :: patterns => staysInPlace pattern && allStayInPlace patterns

end

mutual

/-- Whether a pattern takes a character, as far as all of its parts describe something. -/
def moves : Pattern → Bool
  | literal _ => true
  | one _ _ => true
  | group _ body => moves body
  | repeated body least _ _ => 0 < least && moves body
  | sequence parts => anyMoves parts
  | choice options => allMove options
  | _ => false

/-- Whether one of some patterns takes a character. -/
def anyMoves : List Pattern → Bool
  | [] => false
  | pattern :: patterns => moves pattern || anyMoves patterns

/-- Whether each of some patterns takes a character. -/
def allMove : List Pattern → Bool
  | [] => true
  | pattern :: patterns => moves pattern && allMove patterns

end

/-- Whether a pattern describes nothing at all, being a character of the empty set. -/
def isDeadEnd : Pattern → Bool
  | one set _ => decide (set = .empty)
  | _ => false

/-- Whether a pattern is known to take a character: it moves, and no part of it is a dead
end. -/
def alwaysMoves (pattern : Pattern) : Bool :=
  moves pattern && !anyPart isDeadEnd pattern

mutual

/-- Whether a condition holds wherever a pattern starts. -/
def startsWith (condition : Boundary) : Pattern → Bool
  | boundary other _ => decide (other = condition)
  | group _ body => startsWith condition body
  | repeated body least _ _ => 0 < least && startsWith condition body
  | sequence parts => rowStartsWith condition parts
  | choice options => allStartWith condition options
  | _ => false

/-- Whether a condition holds wherever a row of patterns starts. -/
def rowStartsWith (condition : Boundary) : List Pattern → Bool
  | [] => false
  | part :: parts =>
    startsWith condition part || (staysInPlace part && rowStartsWith condition parts)

/-- Whether a condition holds wherever one of some patterns starts. -/
def allStartWith (condition : Boundary) : List Pattern → Bool
  | [] => true
  | option :: options => startsWith condition option && allStartWith condition options

end

mutual

/-- Whether a condition holds wherever a pattern ends. -/
def endsWith (condition : Boundary) : Pattern → Bool
  | boundary other _ => decide (other = condition)
  | group _ body => endsWith condition body
  | repeated body least _ _ => 0 < least && endsWith condition body
  | sequence parts => rowEndsWith condition false parts
  | choice options => allEndWith condition options
  | _ => false

/-- Whether a condition holds wherever a row of patterns ends, if it is known whether it holds
where the row starts. -/
def rowEndsWith (condition : Boundary) : Bool → List Pattern → Bool
  | held, [] => held
  | held, part :: parts =>
    rowEndsWith condition (endsWith condition part || (staysInPlace part && held)) parts

/-- Whether a condition holds wherever one of some patterns ends. -/
def allEndWith (condition : Boundary) : List Pattern → Bool
  | [] => true
  | option :: options => endsWith condition option && allEndWith condition options

end

/-- One character of a set, which is a text if the set holds only one. -/
def ofSet (set : CharacterSet) (narrow : Bool) : Pattern :=
  match set.only? with
  | some character => literal [character]
  | none => one set (narrow || decide (set = .empty))

/-- The parts of a row. -/
def partsOf : Pattern → List Pattern
  | empty => []
  | sequence parts => parts
  | pattern => [pattern]

/-- A part before other parts. Two texts become one. -/
def putBefore (part : Pattern) (parts : List Pattern) : List Pattern :=
  match part, parts with
  | literal first, literal second :: others => literal (first ++ second) :: others
  | part, parts => part :: parts

/-- A row of patterns in plain form. -/
def chain (patterns : List Pattern) : Pattern :=
  match (patterns.flatMap partsOf).foldr putBefore [] with
  | [] => empty
  | [part] => part
  | parts => sequence parts

/-- The options of a choice. -/
def optionsOf : Pattern → List Pattern
  | choice options => options
  | pattern => [pattern]

/-- The set of a single character. -/
def singleSet? : Pattern → Option CharacterSet
  | literal [character] => some (.single character)
  | _ => none

/-- The set that a pattern takes one character of. -/
def set? : Pattern → Option CharacterSet
  | one set _ => some set
  | _ => none

/-- What some sets hold together. -/
def unionOf (sets : List CharacterSet) : CharacterSet :=
  sets.foldl .union .empty

/-- A choice in plain form, apart from what all options start with. Options that are all
single characters, or all sets, become one set. -/
def choiceOf (patterns : List Pattern) : Pattern :=
  match patterns.flatMap optionsOf with
  | [option] => option
  | options =>
    match options.mapM singleSet? with
    | some sets => ofSet (unionOf sets) false
    | none =>
      match options.mapM set? with
      | some sets => ofSet (unionOf sets) false
      | none => choice options

/-- The parts of a pattern that is a row. -/
def row? : Pattern → Option (List Pattern)
  | sequence parts => some parts
  | _ => none

/-- The number of parts with which two rows start alike, added to a number. -/
def sharedLength (count : Nat) : List Pattern → List Pattern → Nat
  | left :: lefts, right :: rights =>
    if left = right then sharedLength (count + 1) lefts rights else count
  | _, _ => count

/-- A choice in plain form. What all options start with stands before it. -/
def choose (patterns : List Pattern) : Pattern :=
  match (patterns.flatMap optionsOf).mapM row? with
  | some (first :: second :: others) =>
    let shared := (second :: others).foldl (fun shared row =>
      sharedLength 0 (first.take shared) row) first.length
    if shared = 0 then choiceOf patterns
    else
      let rests := (first :: second :: others).map fun row => chain (row.drop shared)
      chain (first.take shared ++ [choiceOf rests])
  | _ => choiceOf patterns

/-- A repetition in plain form. What takes no character need not be done more than once, and
what is done exactly once needs no repetition. -/
def again (body : Pattern) (least : Nat) (most : Option Nat) (short : Bool) : Pattern :=
  let (least, most) :=
    if staysInPlace body then (min least 1, some (min (most.getD 1) 1)) else (least, most)
  if most = some 0 then empty
  else if least = 1 ∧ most = some 1 then body
  else repeated body least most short

end ForthAsm.Pattern
