import ForthAsm.Pattern.Basic
import ForthAsm.Pattern.Fault

/-!
# Expressions

What is written in a pattern, as a tree that keeps where each part stands. Flags say how the
parts behind them are meant, so that an expression has no meaning until they are applied.
-/

namespace ForthAsm.Pattern

/-- How the characters of a pattern can be meant. -/
inductive Flag where
  /-- Letters stand for both cases. -/
  | ignoreCase
  /-- Line boundaries are boundaries of every line. -/
  | multiLine
  /-- The dot stands for line ends too. -/
  | dotAll
  /-- Lines end in a carriage return, a line feed or both. -/
  | returns
  /-- The pattern is about characters of all scripts. -/
  | scripts
  /-- Blanks and comments in the pattern mean nothing. -/
  | spaced
  /-- Repetitions prefer to be short. -/
  | short
  deriving DecidableEq, Repr

/-- The flag with a letter. -/
def Flag.ofLetter? : Char → Option Flag
  | 'i' => some ignoreCase
  | 'm' => some multiLine
  | 's' => some dotAll
  | 'R' => some returns
  | 'u' => some scripts
  | 'x' => some spaced
  | 'U' => some short
  | _ => none

/-- Flags that are set or taken back. -/
abbrev FlagChange := List (Flag × Bool)

/-- What a change makes of a flag. -/
def FlagChange.apply (change : FlagChange) (flag : Flag) (value : Bool) : Bool :=
  (change.lookup flag).getD value

/-- A smallest part of a pattern. -/
inductive Atom where
  /-- A character, which may be written as the number of a byte. -/
  | literal (character : Char) (isByte : Bool)
  /-- Any character that ends no line. -/
  | any
  /-- A condition on a place. -/
  | boundary (condition : Boundary)
  /-- The digits, spaces or word characters, or all but those. -/
  | kind (set : CharacterSet) (negated : Bool)
  /-- The characters with a property. -/
  | property (name : String)
  deriving DecidableEq, Repr

/-- A character at one end of a range, which may be written as the number of a byte. -/
structure RangeEnd where
  /-- The character. -/
  character : Char
  /-- Whether it is written as the number of a byte. -/
  isByte : Bool
  /-- Where it stands. -/
  span : Span
  deriving DecidableEq, Repr

/-- A way to join two sets. -/
inductive Join where
  | intersection
  | difference
  | symmetricDifference
  deriving DecidableEq, Repr

/-- Two sets joined. -/
def Join.apply : Join → CharacterSet → CharacterSet → CharacterSet
  | intersection => .intersection
  | difference => .difference
  | symmetricDifference => .symmetricDifference

/-- What stands between brackets. -/
inductive Members where
  /-- Nothing. -/
  | nothing (span : Span)
  /-- A character, or the characters of a kind or with a property. -/
  | atom (span : Span) (atom : Atom)
  /-- All characters from one to another. -/
  | range (first last : RangeEnd)
  /-- A set that is given by its name, or all characters but those. -/
  | named (span : Span) (negated : Bool) (set : CharacterSet)
  /-- What stands between further brackets, or all characters but those. -/
  | bracket (span : Span) (negated : Bool) (members : Members)
  /-- Several members. -/
  | union (span : Span) (items : List Members)
  /-- Two sets that are joined. -/
  | join (span : Span) (kind : Join) (left right : Members)

namespace Members

/-- Where members stand. -/
def span : Members → Span
  | nothing span => span
  | atom span _ => span
  | range first last => ⟨first.span.start, last.span.stop⟩
  | named span _ _ => span
  | bracket span _ _ => span
  | union span _ => span
  | join span _ _ _ => span

/-- Some members together, which stand at a place if there are none. -/
def ofItems (place : Nat) : List Members → Members
  | [] => nothing ⟨place, place⟩
  | [item] => item
  | first :: second :: others =>
    let last := (second :: others).getLast (by simp)
    union ⟨first.span.start, last.span.stop⟩ (first :: second :: others)

/-- Two sets that are joined. -/
def joined (kind : Join) (left right : Members) : Members :=
  join ⟨left.span.start, right.span.stop⟩ kind left right

end Members

/-- What is written in a pattern. -/
inductive Expression where
  /-- Nothing. -/
  | empty (span : Span)
  /-- A change of how the rest of a group is meant. -/
  | flags (span : Span) (change : FlagChange)
  /-- A smallest part. -/
  | atom (span : Span) (atom : Atom)
  /-- One of the characters between brackets, or of all but those. -/
  | bracket (span : Span) (negated : Bool) (members : Members)
  /-- Something at least some number of times, and at most some number of times if there is a
  limit. -/
  | repetition (span : Span) (body : Expression) (least : Nat) (most : Option Nat) (short : Bool)
  /-- Something between parentheses, which may be given a number and be meant in another
  way. -/
  | group (span : Span) (numbered : Bool) (change : FlagChange) (body : Expression)
  /-- Parts one after the other. -/
  | sequence (span : Span) (parts : List Expression)
  /-- One of several alternatives. -/
  | alternatives (span : Span) (options : List Expression)

namespace Expression

/-- Where an expression stands. -/
def span : Expression → Span
  | empty span => span
  | flags span _ => span
  | atom span _ => span
  | bracket span _ _ => span
  | repetition span _ _ _ _ => span
  | group span _ _ _ => span
  | sequence span _ => span
  | alternatives span _ => span

/-- The parts between two places, one after the other. -/
def ofParts (span : Span) : List Expression → Expression
  | [] => empty span
  | [part] => part
  | parts => sequence span parts

/-- Whether an expression can be repeated. -/
def isRepeatable : Expression → Bool
  | empty _ => false
  | flags _ _ => false
  | _ => true

end Expression

end ForthAsm.Pattern
