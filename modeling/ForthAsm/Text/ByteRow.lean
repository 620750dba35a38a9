/-!
# Rows of byte ranges

How the characters of a range are written as bytes: by rows of byte ranges, such that a
character of the range is written with one byte of each range of one of the rows. Characters
are written in UTF-8, which spreads the number of a character over a leading byte and up to
three more with six bits each. A range is cut where the number of bytes changes and where one
of the later bytes starts over.
-/

namespace ForthAsm

/-- Bytes from one to another. -/
abbrev ByteRange := Nat × Nat

/-- A byte of each range, one after the other. -/
abbrev ByteRow := List ByteRange

namespace ByteRow

/-- All numbers whose leading digit lies between two digits. -/
def wholeBlocks (more start stop : Nat) : List ByteRow :=
  if start ≤ stop then [(start, stop) :: List.replicate more (0, 63)] else []

/-- The numbers from one to another, written as a leading digit and some more digits of base
64. -/
def digitRows : Nat → Nat → Nat → List ByteRow
  | 0, first, last => [[(first, last)]]
  | more + 1, first, last =>
    let block := Nat.pow 64 (more + 1)
    let low := first / block
    let high := last / block
    if low = high then (digitRows more (first % block) (last % block)).map ((low, low) :: ·)
    else
      let startsBlock := first % block = 0
      let endsBlock := last % block = block - 1
      let start := if startsBlock then low else low + 1
      let stop := if endsBlock then high else high - 1
      (if startsBlock then []
        else (digitRows more (first % block) (block - 1)).map ((low, low) :: ·)) ++
      wholeBlocks (more + 1) start stop ++
      (if endsBlock then []
        else (digitRows more 0 (last % block)).map ((high, high) :: ·))

/-- Characters that are written with equally many bytes. -/
structure Stretch where
  /-- The number of the first one. -/
  first : Nat
  /-- The number of the last one. -/
  last : Nat
  /-- The number of bytes behind the leading one. -/
  more : Nat
  /-- What is added to the leading digit. -/
  lead : Nat
  deriving DecidableEq, Repr

/-- All characters. -/
def stretches : List Stretch :=
  [⟨0, 0x7f, 0, 0⟩, ⟨0x80, 0x7ff, 1, 0xc0⟩, ⟨0x800, 0xd7ff, 2, 0xe0⟩,
   ⟨0xe000, 0xffff, 2, 0xe0⟩, ⟨0x10000, 0x10ffff, 3, 0xf0⟩]

/-- Digits with something added to each. -/
def shift (amount : Nat) (range : ByteRange) : ByteRange :=
  (range.1 + amount, range.2 + amount)

/-- The bytes of a row of digits. -/
def mark (lead : Nat) : ByteRow → ByteRow
  | [] => []
  | digit :: digits => shift lead digit :: digits.map (shift 0x80)

/-- The rows of the characters of a range that belong to a stretch. -/
def ofStretch (range : Nat × Nat) (stretch : Stretch) : List ByteRow :=
  let first := max range.1 stretch.first
  let last := min range.2 stretch.last
  if first ≤ last then (digitRows stretch.more first last).map (mark stretch.lead) else []

/-- The rows of the characters of a range. -/
def ofRange (range : Nat × Nat) : List ByteRow :=
  stretches.flatMap (ofStretch range)

end ByteRow

end ForthAsm
