/-!
# Plain text

A terminal takes some characters of a text for orders: single control characters and whole
sequences that start with an escape character. A text that goes to a file or to another
program is written without them. Blanks and line ends stay, also those that stand inside a
sequence; from such a blank on everything is shown until the next character that is not, and
only then the sequence goes on.

Main statement: `strip_eq_self`, a text of shown characters stays as it is.
-/

namespace ForthAsm.Plain

/-- Whether the number of a character lies between two numbers. -/
def within (low high : Nat) (character : Char) : Bool :=
  low ≤ character.toNat && character.toNat ≤ high

/-- Whether a control character only moves on in the text. -/
def isSpacing (character : Char) : Bool :=
  character = '\t' || character = '\n' || character = '\x0c' || character = '\r'

/-- Whether a character that is not part of a sequence is shown. -/
def isShown (character : Char) : Bool :=
  isSpacing character || within 0x20 0x7e character || 0x80 ≤ character.toNat

/-- What a terminal is in the middle of. -/
inductive Mode where
  /-- Text that is shown. -/
  | text
  /-- A sequence of which only the escape character has been read. -/
  | escape
  /-- An escape sequence that lacks its last character. -/
  | escapeEnd
  /-- A control sequence that lacks its last character. -/
  | control
  /-- A command, which a bell ends. -/
  | command
  /-- The start of a device string, before its parameters. -/
  | deviceStart
  /-- The parameters of a device string. -/
  | deviceParameters
  /-- The start of a device string, after its parameters. -/
  | deviceEnd
  /-- A string that is meant for a device. -/
  | string
  deriving DecidableEq, Repr

namespace Mode

/-- The kind of sequence that a character behind an escape character starts. -/
def ofIntroducer (character : Char) : Mode :=
  if within 0x20 0x2f character then escapeEnd
  else if character = '[' then control
  else if character = ']' then command
  else if character = 'P' then deviceStart
  else if character = 'X' || character = '^' || character = '_' then string
  else if within 0x30 0x7e character then text
  else escape

/-- Whether a character ends a string: its encoding holds the byte of the string terminator. -/
def endsString (character : Char) : Bool :=
  (String.utf8EncodeChar character).contains 0x9c

/-- What a terminal is in the middle of after a character. -/
def next (mode : Mode) (character : Char) : Mode :=
  if character = '\x18' || character = '\x1a' then text
  else if character = '\x1b' then escape
  else match mode with
    | text => text
    | escape => ofIntroducer character
    | escapeEnd => if within 0x30 0x7e character then text else escapeEnd
    | control => if within 0x40 0x7e character then text else control
    | command => if character = '\x07' then text else command
    | deviceStart =>
      if within 0x20 0x2f character then deviceEnd
      else if within 0x30 0x3f character then deviceParameters
      else if within 0x40 0x7e character then string
      else deviceStart
    | deviceParameters =>
      if within 0x20 0x2f character then deviceEnd
      else if within 0x3c 0x7e character then string
      else deviceParameters
    | deviceEnd => if within 0x30 0x7e character then string else deviceEnd
    | string => if endsString character then text else string

/-- Whether a character is shown. -/
def shows (mode : Mode) (character : Char) : Bool :=
  match mode with
  | text => isShown character
  | escape | escapeEnd | control => isSpacing character
  | _ => false

end Mode

/-- A terminal that reads a text. -/
structure Terminal where
  /-- What it is in the middle of. -/
  mode : Mode
  /-- Whether the last character was shown. -/
  showing : Bool
  deriving DecidableEq, Repr

namespace Terminal

/-- The terminal at the start of a text. -/
def fresh : Terminal := ⟨.text, true⟩

/-- Whether a character is shown next. -/
def shows (terminal : Terminal) (character : Char) : Bool :=
  (terminal.showing && isShown character) || terminal.mode.shows character

/-- The terminal after a character. While text is shown, a sequence that is not over rests; a
character of more than one byte makes it forgotten. -/
def next (terminal : Terminal) (character : Char) : Terminal :=
  if terminal.showing && isShown character then
    if character.toNat < 0x80 then terminal else fresh
  else ⟨terminal.mode.next character, terminal.mode.shows character⟩

/-- Go on by one character and write it if it is shown. -/
def step (progress : Terminal × String) (character : Char) : Terminal × String :=
  (progress.1.next character,
    if progress.1.shows character then progress.2.push character else progress.2)

end Terminal

/-- A text without what a terminal takes for orders. -/
def strip (text : String) : String :=
  (text.toList.foldl Terminal.step (.fresh, "")).2

/-- A shown character leaves a fresh terminal as it is. -/
theorem step_fresh {character : Char} (shown : isShown character) (written : String) :
    Terminal.step (.fresh, written) character = (.fresh, written.push character) := by
  simp [Terminal.step, Terminal.next, Terminal.shows, Terminal.fresh, shown]

/-- A text of shown characters stays as it is. -/
theorem strip_eq_self {text : String} (shown : ∀ character ∈ text.toList, isShown character) :
    strip text = text := by
  have kept : ∀ (characters : List Char) (written : String),
      (∀ character ∈ characters, isShown character) →
        characters.foldl Terminal.step (.fresh, written) =
          (.fresh, written ++ String.ofList characters) := by
    intro characters
    induction characters with
    | nil => simp
    | cons character characters ih =>
      intro written all
      rw [List.foldl_cons, step_fresh (all character (by simp)),
        ih _ fun other member => all other (by simp [member])]
      simp [← String.toList_inj]
  simp [strip, kept text.toList "" shown]

end ForthAsm.Plain
