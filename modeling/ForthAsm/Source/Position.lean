import ForthAsm.Source.Byte

/-!
# Positions in a source

Lines and columns are counted in bytes and start at one. A line feed is the last byte of its
line, inside a comment as well as outside.
-/

namespace ForthAsm

/-- Where a byte stands in its source. -/
structure Position where
  /-- The number of the line, counted from one. -/
  line : Nat
  /-- The number of the byte in its line, counted from one. -/
  column : Nat
  deriving DecidableEq, Repr

namespace Position

/-- Where the first byte of a source stands. -/
def start : Position := ⟨1, 1⟩

/-- The position after a byte that stands here. -/
def advance (position : Position) (byte : UInt8) : Position :=
  if byte = Byte.lineFeed then ⟨position.line + 1, 1⟩
  else ⟨position.line, position.column + 1⟩

/-- The position after a run of bytes whose first byte stands here. -/
def advanceAll (position : Position) (bytes : List UInt8) : Position :=
  bytes.foldl advance position

/-- Line and column, divided by a colon. -/
def text (position : Position) : String :=
  toString position.line ++ ":" ++ toString position.column

/-- A line feed leads to the first column of the next line. -/
@[simp]
theorem advance_lineFeed (position : Position) :
    position.advance Byte.lineFeed = ⟨position.line + 1, 1⟩ := by
  simp [advance]

/-- Any other byte leads to the next column of the same line. -/
theorem advance_of_ne {byte : UInt8} (other : byte ≠ Byte.lineFeed) (position : Position) :
    position.advance byte = ⟨position.line, position.column + 1⟩ := by
  simp [advance, other]

/-- No bytes lead nowhere. -/
@[simp]
theorem advanceAll_nil (position : Position) : position.advanceAll [] = position := rfl

/-- The first byte leads to where the others stand. -/
@[simp]
theorem advanceAll_cons (position : Position) (byte : UInt8) (bytes : List UInt8) :
    position.advanceAll (byte :: bytes) = (position.advance byte).advanceAll bytes := rfl

/-- Two runs of bytes lead as far as one after the other. -/
theorem advanceAll_append (position : Position) (first second : List UInt8) :
    position.advanceAll (first ++ second) = (position.advanceAll first).advanceAll second := by
  simp [advanceAll]

end Position

end ForthAsm
