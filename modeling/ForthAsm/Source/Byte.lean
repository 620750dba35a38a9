/-!
# Bytes of a source

A source is a sequence of bytes of three kinds: blanks divide words, slashes and backslashes
open a comment that runs through the next line feed, and every other byte belongs to a word.
Each byte stands for one character, so a source in any encoding can be cut into words.
-/

namespace ForthAsm.Byte

/-- The byte that ends a line, and with it a comment. -/
def lineFeed : UInt8 := 10

/-- Space, tab, carriage return and line feed divide words. -/
def isBlank (byte : UInt8) : Bool :=
  byte == 32 || byte == 9 || byte == 13 || byte == lineFeed

/-- A slash or a backslash opens a comment, also in the middle of a word. -/
def opensComment (byte : UInt8) : Bool :=
  byte == 47 || byte == 92

/-- A byte that neither is a blank nor opens a comment is part of a word. -/
def isWordByte (byte : UInt8) : Bool :=
  !isBlank byte && !opensComment byte

/-- The character with the number of the byte, from U+0000 to U+00FF. -/
def toChar (byte : UInt8) : Char :=
  Char.ofUInt8 byte

/-- Widening a byte keeps its number. -/
@[simp]
theorem toNat_toChar (byte : UInt8) : (toChar byte).toNat = byte.toNat := rfl

/-- Different bytes are different characters. -/
theorem toChar_injective {left right : UInt8} (same : toChar left = toChar right) :
    left = right := by
  have numbers := congrArg Char.toNat same
  simp only [toNat_toChar] at numbers
  exact UInt8.toNat_inj.mp numbers

/-- No byte both divides words and opens a comment. -/
theorem isBlank_eq_false_of_opensComment {byte : UInt8}
    (marker : opensComment byte = true) : isBlank byte = false := by
  simp only [opensComment, Bool.or_eq_true, beq_iff_eq] at marker
  rcases marker with rfl | rfl <;> rfl

end ForthAsm.Byte
