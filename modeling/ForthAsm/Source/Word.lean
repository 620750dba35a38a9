import ForthAsm.Source.Position

/-!
# Words

A word is a run of word bytes of the source, widened to characters, together with the
position of its first byte.
-/

namespace ForthAsm

/-- A word of a source and where it starts. -/
structure Word where
  /-- The characters of the word. -/
  text : String
  /-- Where the first character stands. -/
  position : Position
  deriving DecidableEq, Repr

namespace Word

/-- The word that consists of one byte. -/
def ofByte (position : Position) (byte : UInt8) : Word :=
  ⟨String.singleton (Byte.toChar byte), position⟩

/-- The word with one more byte at its end. -/
def extend (word : Word) (byte : UInt8) : Word :=
  { word with text := word.text.push (Byte.toChar byte) }

/-- The word made of a run of bytes that starts at a position. -/
def ofBytes (position : Position) (bytes : List UInt8) : Word :=
  ⟨String.ofList (bytes.map Byte.toChar), position⟩

/-- A word of one byte is made of that byte alone. -/
theorem ofByte_eq_ofBytes (position : Position) (byte : UInt8) :
    ofByte position byte = ofBytes position [byte] := rfl

/-- Extending a word appends to the run it is made of. -/
theorem extend_ofBytes (position : Position) (bytes : List UInt8) (byte : UInt8) :
    (ofBytes position bytes).extend byte = ofBytes position (bytes ++ [byte]) := by
  simp only [extend, ofBytes, Word.mk.injEq, and_true]
  apply String.ext
  simp

end Word

end ForthAsm
