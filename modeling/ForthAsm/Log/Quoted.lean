/-!
# Quoted text

A text inside a log message stands between quotes, with the characters escaped that would
end it or could not be seen: quotes and backslashes, the common control characters by their
letter, and the other invisible characters of the first 256 by their number.
-/

namespace ForthAsm.Quoted

/-- Whether a character is written by its number: the control characters, the no-break space
and the soft hyphen. -/
def isInvisible (character : Char) : Bool :=
  character.toNat < 0x20 || (0x7f ≤ character.toNat && character.toNat ≤ 0xa0) ||
    character.toNat == 0xad

/-- The number of a character in base sixteen, without leading zeros. -/
def number (character : Char) : String :=
  String.ofList (Nat.toDigits 16 character.toNat)

/-- A character as it is written between quotes. -/
def escape (character : Char) : String :=
  if character = '\x00' then "\\0"
  else if character = '\t' then "\\t"
  else if character = '\n' then "\\n"
  else if character = '\r' then "\\r"
  else if character = '"' then "\\\""
  else if character = '\\' then "\\\\"
  else if isInvisible character then "\\u\x7b" ++ number character ++ "\x7d"
  else String.singleton character

/-- A text between quotes. -/
def quote (text : String) : String :=
  text.toList.foldl (fun written character => written ++ escape character) "\"" ++ "\""

end ForthAsm.Quoted
