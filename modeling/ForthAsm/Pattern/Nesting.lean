import ForthAsm.Pattern.Expression

/-!
# Nesting

How deep the parts of an expression stand inside each other. Rows, alternatives, repetitions,
groups and brackets are each a level of their own.
-/

namespace ForthAsm.Pattern

mutual

/-- Where members first stand inside of more than so many levels. -/
def Members.tooDeep? : Nat → Members → Option Span
  | 0, .bracket span _ _ => some span
  | 0, .union span _ => some span
  | 0, .join span _ _ _ => some span
  | levels + 1, .bracket _ _ members => members.tooDeep? levels
  | levels + 1, .union _ items => Members.anyTooDeep? levels items
  | levels + 1, .join _ _ left right =>
    match left.tooDeep? levels with
    | some span => some span
    | none => right.tooDeep? levels
  | _, _ => none

/-- Where one of some members first stands inside of more than so many levels. -/
def Members.anyTooDeep? : Nat → List Members → Option Span
  | _, [] => none
  | levels, item :: items =>
    match item.tooDeep? levels with
    | some span => some span
    | none => Members.anyTooDeep? levels items

end

mutual

/-- Where an expression first stands inside of more than so many levels. -/
def Expression.tooDeep? : Nat → Expression → Option Span
  | 0, .bracket span _ _ => some span
  | 0, .repetition span _ _ _ _ => some span
  | 0, .group span _ _ _ => some span
  | 0, .sequence span _ => some span
  | 0, .alternatives span _ => some span
  | levels + 1, .bracket _ _ members => members.tooDeep? levels
  | levels + 1, .repetition _ body _ _ _ => body.tooDeep? levels
  | levels + 1, .group _ _ _ body => body.tooDeep? levels
  | levels + 1, .sequence _ parts => Expression.anyTooDeep? levels parts
  | levels + 1, .alternatives _ options => Expression.anyTooDeep? levels options
  | _, _ => none

/-- Where one of some expressions first stands inside of more than so many levels. -/
def Expression.anyTooDeep? : Nat → List Expression → Option Span
  | _, [] => none
  | levels, expression :: expressions =>
    match expression.tooDeep? levels with
    | some span => some span
    | none => Expression.anyTooDeep? levels expressions

end

end ForthAsm.Pattern
