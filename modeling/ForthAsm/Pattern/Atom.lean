import ForthAsm.Pattern.Expression
import ForthAsm.Pattern.Reading

/-!
# Reading atoms

The smallest parts of a pattern: single characters, the dot, boundaries, and the escapes that
stand for them or for kinds of characters.
-/

namespace ForthAsm.Pattern

namespace Reader

/-- The number that digits of base sixteen stand for. -/
def hexValue (digits : List Char) : Nat :=
  digits.foldl (fun value digit =>
    value * 16 +
      if digit.isDigit then digit.toNat - '0'.toNat
      else digit.toLower.toNat - 'a'.toNat + 10) 0

/-- Whether a character is a digit of base sixteen. -/
def isHex (character : Char) : Bool :=
  character.isDigit || ('a' ≤ character.toLower && character.toLower ≤ 'f')

/-- The character with a number that is written from one place to another. -/
def characterOf (digits : List Char) (start stop : Nat) : Reader Char :=
  if (hexValue digits).isValidChar then return Char.ofNat (hexValue digits)
  else fail .hexNoCharacter start stop

/-- Read a fixed number of digits. -/
def readDigits : Nat → Reader (List Char)
  | 0 => return []
  | count + 1 => do
    match ← peek with
    | none => fail .escapeUnfinished (← here) (← here)
    | some digit =>
      if isHex digit then
        let _ ← advanceOver
        return digit :: (← readDigits count)
      else fail .hexDigit (← here) ((← here) + 1)

/-- Read the number of a character, with a fixed number of digits or between braces. -/
def readNumber (count : Nat) (isByte : Bool) : Reader Atom := do
  match ← advanceOver with
  | none => fail .escapeUnfinished (← here) (← here)
  | some '\x7b' =>
    let brace ← here
    let _ ← advanceOver
    let digits ← readAll isHex
    let stop ← here
    match ← peek with
    | none => fail .escapeUnfinished brace stop
    | some '\x7d' =>
      let _ ← advanceOver
      if digits.isEmpty then fail .hexEmpty brace (← here)
      else return .literal (← characterOf digits (brace + 1) stop) false
    | some _ => fail .hexDigit stop (stop + 1)
  | some _ =>
    let start ← here
    let digits ← readDigits count
    return .literal (← characterOf digits start (← here)) isByte

/-- Read the name of a property, which is a single character or stands between braces. -/
def readProperty : Reader Atom := do
  match ← advanceOver with
  | none => fail .escapeUnfinished (← here) (← here)
  | some '\x7b' =>
    let _ ← advanceOver
    let name ← readAll (· ≠ '\x7d')
    match ← peek with
    | none => fail .escapeUnfinished (← here) (← here)
    | some _ =>
      skip 1
      return .property (String.ofList name)
  | some '\\' => fail .propertyName (← here) ((← here) + 1)
  | some character =>
    let _ ← advanceOver
    return .property (String.ofList [character])

/-- Whether a character may stand in the name of a word boundary. -/
def isEdgeName (character : Char) : Bool :=
  character.isAlpha || character = '-'

/-- The word boundary with a name. -/
def edge? : String → Option Boundary
  | "start" => some .wordStart
  | "end" => some .wordEnd
  | "start-half" => some .wordStartHalf
  | "end-half" => some .wordEndHalf
  | _ => none

/-- Read what may follow the escape of a word boundary, which starts at a place: a name between
braces. Braces that hold no name are left, as the count of a repetition. -/
def readEdge (start : Nat) : Reader Boundary := do
  if (← peek) ≠ some '\x7b' then return .wordEdge
  let before ← get
  let brace ← here
  match ← advanceOver with
  | none => fail .wordEdgeUnfinished start (← here)
  | some first =>
    if !isEdgeName first then
      set before
      return .wordEdge
    let contents ← here
    let name ← readAll isEdgeName
    let stop ← here
    if (← peek) ≠ some '\x7d' then fail .wordEdgeUnclosed brace stop
    skip 1
    match edge? (String.ofList name) with
    | some condition => return condition
    | none => fail .wordEdgeUnknown contents stop

/-- Whether a character behind a backslash stands for itself. -/
def isEscapable (character : Char) : Bool :=
  character.toNat < 0x80 && !character.isAlphanum && character ≠ '<' && character ≠ '>'

/-- The control character that a letter behind a backslash stands for. -/
def control? : Char → Option Char
  | 'a' => some '\x07'
  | 'f' => some '\x0c'
  | 't' => some '\t'
  | 'n' => some '\n'
  | 'r' => some '\r'
  | 'v' => some '\x0b'
  | _ => none

/-- The boundary that a character behind a backslash stands for. -/
def boundary? : Char → Option Boundary
  | 'A' => some .textStart
  | 'z' => some .textEnd
  | 'B' => some .noWordEdge
  | '<' => some .wordStart
  | '>' => some .wordEnd
  | _ => none

/-- The kind of characters that a letter behind a backslash stands for. -/
def kind? : Char → Option CharacterSet
  | 'd' => some .digits
  | 's' => some .spaces
  | 'w' => some .wordCharacters
  | _ => none

/-- Read a character behind the backslash at a place. -/
def readEscaped (start : Nat) (character : Char) : Reader Atom := do
  if character.isDigit then fail .backreference start ((← here) + 1)
  match character with
  | 'x' => readNumber 2 true
  | 'u' => readNumber 4 false
  | 'U' => readNumber 8 false
  | 'p' | 'P' => readProperty
  | _ =>
    skip 1
    if let some set := kind? character.toLower then return .kind set character.isUpper
    if isEscapable character then return .literal character false
    if let some meant := control? character then return .literal meant false
    if let some condition := boundary? character then return .boundary condition
    if character = 'b' then return .boundary (← readEdge start)
    fail .escapeUnknown start (← here)

/-- Read an escape, from its backslash on. -/
def readEscape : Reader (Atom × Span) := do
  let start ← here
  match ← advance with
  | none => fail .escapeUnfinished start (← here)
  | some character =>
    let atom ← readEscaped start character
    return (atom, ⟨start, ← here⟩)

/-- Read a character that stands for itself. -/
def readLiteral (character : Char) : Reader (Atom × Span) := do
  let start ← here
  skip 1
  return (.literal character false, ⟨start, start + 1⟩)

/-- Read an atom outside of a class. -/
def readAtom (character : Char) : Reader (Atom × Span) := do
  let start ← here
  let simple (atom : Atom) : Reader (Atom × Span) := do
    skip 1
    return (atom, ⟨start, start + 1⟩)
  match character with
  | '\\' => readEscape
  | '.' => simple .any
  | '^' => simple (.boundary .lineStart)
  | '$' => simple (.boundary .lineEnd)
  | _ => readLiteral character

end Reader

end ForthAsm.Pattern
