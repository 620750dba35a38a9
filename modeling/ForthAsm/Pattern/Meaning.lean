import ForthAsm.Pattern.Build
import ForthAsm.Pattern.Expression

/-!
# Meanings of expressions

The pattern that an expression stands for, with the flags that are in force at each of its
parts. An expression may ask for something that is not there: nothing is known about the
characters of all scripts beyond their numbers, and no part of a pattern may take less than a
whole character.
-/

namespace ForthAsm.Pattern

/-- The flags that are in force. -/
structure Flags where
  /-- Letters stand for both cases. -/
  ignoreCase : Bool
  /-- Line boundaries are boundaries of every line. -/
  multiLine : Bool
  /-- The dot stands for line ends too. -/
  dotAll : Bool
  /-- Lines end in a carriage return, a line feed or both. -/
  returns : Bool
  /-- The pattern is about characters of all scripts. -/
  scripts : Bool
  /-- Repetitions prefer to be short. -/
  short : Bool
  deriving DecidableEq, Repr

namespace Flags

/-- The flags at the start of a pattern. -/
def initial : Flags := ⟨false, false, false, false, true, false⟩

/-- The flags after a change. -/
def after (flags : Flags) (change : FlagChange) : Flags where
  ignoreCase := change.apply .ignoreCase flags.ignoreCase
  multiLine := change.apply .multiLine flags.multiLine
  dotAll := change.apply .dotAll flags.dotAll
  returns := change.apply .returns flags.returns
  scripts := change.apply .scripts flags.scripts
  short := change.apply .short flags.short

/-- What a boundary means. -/
def resolve (flags : Flags) : Boundary → Boundary
  | .lineStart =>
    if !flags.multiLine then .textStart else if flags.returns then .returnStart else .lineStart
  | .lineEnd =>
    if !flags.multiLine then .textEnd else if flags.returns then .returnEnd else .lineEnd
  | condition => condition

/-- The characters that the dot does not stand for. -/
def lineEnds (flags : Flags) : CharacterSet :=
  if flags.dotAll then .empty
  else if flags.returns then (CharacterSet.single '\n').union (.single '\r')
  else .single '\n'

end Flags

/-- Refuse what stands between two places. -/
def refuse {α : Type} (problem : Problem) (span : Span) : Except Fault α :=
  .error ⟨problem, span, none⟩

/-! ## Sets -/

/-- A set, and whether it is known to hold each letter in both cases. -/
structure CasedSet where
  /-- The set. -/
  set : CharacterSet
  /-- Whether it is known to hold each letter in both cases. -/
  closed : Bool
  deriving DecidableEq, Repr

namespace CasedSet

/-- No character. -/
def empty : CasedSet := ⟨.empty, true⟩

/-- A set with characters that are written out. -/
def insert (held : CasedSet) (set : CharacterSet) : CasedSet :=
  ⟨held.set.union set, false⟩

/-- The characters of two sets. -/
def union (left right : CasedSet) : CasedSet :=
  if right.set = .empty ∨ left.set = right.set then left
  else ⟨left.set.union right.set, left.closed && right.closed⟩

/-- All characters that are not in a set. -/
def complement (held : CasedSet) : CasedSet :=
  ⟨held.set.complement, held.closed || decide (held.set = .empty)⟩

/-- A set in both cases, if case is ignored. The letters of all scripts cannot be told from
their other case. -/
def fold (flags : Flags) (span : Span) (held : CasedSet) : Except Fault CasedSet :=
  if !flags.ignoreCase then .ok held
  else if !flags.scripts then .ok ⟨held.set.anyCase, true⟩
  else if held.closed || held.set = .empty then .ok ⟨held.set, true⟩
  else refuse .caseTable span

/-- A set in both cases, if case is ignored, or all characters that are not in it. Where only
the first 128 characters are meant, others would be parts of characters. -/
def close (flags : Flags) (span : Span) (negated : Bool) (held : CasedSet) :
    Except Fault CasedSet := do
  let folded ← held.fold flags span
  let closed := if negated then folded.complement else folded
  if !flags.scripts && !closed.set.isNarrow then refuse .invalidEncoding span
  else return closed

end CasedSet

/-- The digits, spaces or word characters, or all but those. Which characters of all scripts
those are is not known. -/
def kindSet (flags : Flags) (span : Span) (negated : Bool) (set : CharacterSet) :
    Except Fault CharacterSet :=
  if flags.scripts then refuse .wordClassTable span
  else if negated then refuse .invalidEncoding span
  else .ok set

/-- The name of a property in plain form: small letters without blanks, dashes and a word that
only introduces it. -/
def plainName (name : String) : String :=
  let characters := name.toList
  let introduced := ((characters.take 2).map Char.toLower) == ['i', 's']
  let rest := if introduced then characters.drop 2 else characters
  String.ofList ((rest.filter fun character =>
    character.toNat < 0x80 && character ∉ [' ', '_', '-']).map Char.toLower)

/-- The characters with a property, which are not known. Some names are those of values of a
property, and are looked for among the values. -/
def propertySet {α : Type} (flags : Flags) (span : Span) (name : String) : Except Fault α :=
  if !flags.scripts then refuse .scriptsNotAllowed span
  else if plainName name ∈ ["cf", "sc", "lc"] then refuse .propertyValue span
  else refuse .propertyTable span

/-- A character between brackets. -/
def memberCharacter (flags : Flags) (span : Span) (character : Char) (isByte : Bool) :
    Except Fault Nat :=
  if !flags.scripts && 0x80 ≤ character.toNat then
    refuse (if isByte then .invalidEncoding else .scriptsNotAllowed) span
  else .ok character.toNat

mutual

/-- The characters of a set and of what stands between brackets. -/
def Members.addTo (flags : Flags) (held : CasedSet) : Members → Except Fault CasedSet
  | .nothing _ => .ok held
  | .atom span (.literal character isByte) => do
    let number ← memberCharacter flags span character isByte
    return held.insert (.range number number)
  | .atom span (.kind set negated) => do
    return held.union ⟨← kindSet flags span negated set, false⟩
  | .atom span (.property name) => propertySet flags span name
  | .atom span _ => refuse .classEscape span
  | .range first last => do
    let low ← memberCharacter flags first.span first.character first.isByte
    let high ← memberCharacter flags last.span last.character last.isByte
    return held.insert (.range low high)
  | .named span negated set => do
    return held.union (← CasedSet.close flags span negated ⟨set, false⟩)
  | .bracket span negated members => do
    return held.union (← (← members.addTo flags .empty).close flags span negated)
  | .union _ items => Members.addAllTo flags held items
  | .join _ kind left right => do
    let leftHeld ← left.addTo flags .empty
    let rightHeld ← right.addTo flags .empty
    let rightFolded ← rightHeld.fold flags right.span
    let leftFolded ← leftHeld.fold flags left.span
    return held.union ⟨kind.apply leftFolded.set rightFolded.set, true⟩

/-- The characters of a set and of several members. -/
def Members.addAllTo (flags : Flags) (held : CasedSet) : List Members → Except Fault CasedSet
  | [] => .ok held
  | item :: items => do Members.addAllTo flags (← item.addTo flags held) items

end

/-! ## Atoms -/

/-- A character for itself, or in both cases. -/
def literalMeaning (flags : Flags) (span : Span) (character : Char) (isByte : Bool) :
    Except Fault Pattern :=
  if flags.scripts then
    if flags.ignoreCase then refuse .caseTable span else .ok (literal [character])
  else if isByte && 0x80 ≤ character.toNat then refuse .invalidEncoding span
  else if flags.ignoreCase then .ok (ofSet (CharacterSet.single character).anyCase true)
  else .ok (literal [character])

/-- The pattern of an atom. -/
def Atom.meaning (flags : Flags) (span : Span) : Atom → Except Fault Pattern
  | .literal character isByte => literalMeaning flags span character isByte
  | .any =>
    if flags.scripts then .ok (ofSet flags.lineEnds.complement false)
    else refuse .invalidEncoding span
  | .kind set negated => do return ofSet (← kindSet flags span negated set) true
  | .property name => propertySet flags span name
  | .boundary condition =>
    let resolved := flags.resolve condition
    .ok (Pattern.boundary resolved (flags.scripts && resolved.isAboutWords))

/-! ## Expressions -/

/-- What is kept from one part of an expression to the next. -/
structure Context where
  /-- The flags that are in force. -/
  flags : Flags
  /-- The number of groups so far. -/
  groups : Nat

/-- A step of finding the meaning of an expression. -/
abbrev Meaning := StateT Context (Except Fault)

mutual

/-- The pattern of an expression. -/
def Expression.meaning : Expression → Meaning Pattern
  | .empty _ => return Pattern.empty
  | .flags _ change => do
    modify fun context => { context with flags := context.flags.after change }
    return Pattern.empty
  | .atom span part => do part.meaning (← get).flags span
  | .bracket span negated members => do
    let flags := (← get).flags
    let held ← members.addTo flags .empty
    let closed ← held.close flags span negated
    return ofSet closed.set (!flags.scripts)
  | .repetition _ body least most short => do
    let pattern ← body.meaning
    return again pattern least most (short != (← get).flags.short)
  | .group _ numbered change body => do
    let outer := (← get).flags
    let number := (← get).groups + 1
    modify fun context =>
      { flags := outer.after change, groups := if numbered then number else context.groups }
    let pattern ← body.meaning
    modify fun context => { context with flags := outer }
    return if numbered then Pattern.group number pattern else pattern
  | .sequence _ parts => do return chain (← Expression.meaningOfAll parts [])
  | .alternatives _ options => do return choose (← Expression.meaningOfAll options [])

/-- The patterns of some expressions, behind others, last one first. -/
def Expression.meaningOfAll : List Expression → List Pattern → Meaning (List Pattern)
  | [], found => return found.reverse
  | expression :: expressions, found => do
    let pattern ← expression.meaning
    Expression.meaningOfAll expressions (pattern :: found)

end

end ForthAsm.Pattern
