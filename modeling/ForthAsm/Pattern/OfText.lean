import ForthAsm.Pattern.Meaning
import ForthAsm.Pattern.Nesting
import ForthAsm.Pattern.Parser
import ForthAsm.Pattern.Size

/-!
# Patterns from texts

A text is read as an expression, the expression must not be nested too deep, and it must have
a meaning that can be looked for: its automata must not be too large, and they tell words
apart only by the first 128 characters. The first of these that fails is reported.
-/

namespace ForthAsm.Pattern

/-- Why a text cannot be used as a pattern. -/
inductive Defect where
  /-- Something is wrong at a place. -/
  | malformed (text : String) (fault : Fault)
  /-- The words of all scripts would have to be told apart. -/
  | unknownWords
  /-- An automaton would be too large. -/
  | tooLarge
  deriving DecidableEq, Repr

/-- The largest size of an automaton. -/
def largest : Nat := 10 * 1024 * 1024

/-- What is wrong with a text, in words. -/
def Defect.message : Defect → String
  | malformed text fault => fault.message text.toList
  | unknownWords => "error building NFA"
  | tooLarge => "Compiled regex exceeds size limit of " ++ toString largest ++ " bytes."

/-- Whether a pattern tells the words of all scripts apart. -/
def needsWords (pattern : Pattern) : Bool :=
  pattern.anyPart fun
    | boundary _ scripts => scripts
    | _ => false

/-- The pattern that an expression stands for, or what is wrong with it. -/
def ofExpression (expression : Expression) : Except Fault Pattern :=
  match expression.tooDeep? deepest with
  | some span => refuse .nestedTooDeep span
  | none => expression.meaning.run' ⟨.initial, 0⟩

/-- A pattern, unless it cannot be looked for. -/
def checked (pattern : Pattern) : Except Defect Pattern :=
  if largest < pattern.automatonSize .forwards then .error .tooLarge
  else if pattern.needsWords then .error .unknownWords
  else if largest < pattern.automatonSize .backwards then .error .tooLarge
  else .ok pattern

/-- The pattern that a text describes. -/
def ofText (text : String) : Except Defect Pattern :=
  match Expression.ofText text.toList with
  | .error fault => .error (.malformed text fault)
  | .ok expression =>
    match ofExpression expression with
    | .error fault => .error (.malformed text fault)
    | .ok pattern => pattern.checked

end ForthAsm.Pattern
