/-!
# Blank characters

The characters that only make room: the blanks and line ends of every script. Texts that
people write by hand are trimmed of them.
-/

namespace ForthAsm.Blank

/-- Whether a character is one of the blanks and line ends that Unicode calls white space. -/
def isBlank (character : Char) : Bool :=
  let code := character.toNat
  (0x09 ≤ code && code ≤ 0x0d) || code == 0x20 || code == 0x85 || code == 0xa0 ||
    code == 0x1680 || (0x2000 ≤ code && code ≤ 0x200a) || code == 0x2028 || code == 0x2029 ||
    code == 0x202f || code == 0x205f || code == 0x3000

/-- The characters without the blanks at both ends. -/
def trim (characters : List Char) : List Char :=
  ((characters.dropWhile isBlank).reverse.dropWhile isBlank).reverse

end ForthAsm.Blank
