/-!
# Similar names

How much two names agree, as a ratio between zero and one. A character of one name is found
again in the other if the same character stands there, not taken yet, less than half of the
longer length away. The ratio is the mean of three parts: the found characters among all of
the first name, those among all of the second name, and those of them that also come in the
same order.
-/

namespace ForthAsm

/-- A ratio of natural numbers. -/
structure Ratio where
  /-- The part. -/
  part : Nat
  /-- The whole. -/
  whole : Nat
  deriving DecidableEq, Repr

namespace Ratio

/-- No agreement at all. -/
def zero : Ratio := ⟨0, 1⟩

/-- Whether a ratio is at most as large as another one. -/
def atMost (left right : Ratio) : Bool :=
  left.part * right.whole ≤ right.part * left.whole

end Ratio

namespace Similarity

/-- Take the first character that stands from one place up to another, is free and is the one
that is looked for. -/
def takeBetween (low high : Nat) (wanted : Char) :
    Nat → List (Char × Bool) → Option (List (Char × Bool))
  | _, [] => none
  | place, (character, taken) :: others =>
    if low ≤ place && place < high && !taken && character = wanted then
      some ((character, true) :: others)
    else (takeBetween low high wanted (place + 1) others).map ((character, taken) :: ·)

/-- How far from its own place a character is looked for. -/
def reach (left right : List Char) : Nat :=
  max left.length right.length / 2 - 1

/-- The characters of a name, from a place on, that are found again, and the other name with
those taken. -/
def find (reach : Nat) : Nat → List Char → List (Char × Bool) → List Char × List (Char × Bool)
  | _, [], free => ([], free)
  | place, character :: characters, free =>
    match takeBetween (place - reach) (place + reach + 1) character 0 free with
    | none => find reach (place + 1) characters free
    | some fewer =>
      let (found, rest) := find reach (place + 1) characters fewer
      (character :: found, rest)

/-- How much two names agree. -/
def ratio (left right : List Char) : Ratio :=
  let (found, marked) := find (reach left right) 0 left (right.map (·, false))
  let taken := (marked.filter (·.2)).map (·.1)
  let common := found.length
  let moved := ((found.zip taken).filter fun (first, second) => first ≠ second).length / 2
  if common = 0 then .zero
  else
    { part := common * common * (left.length + right.length) +
        (common - moved) * (left.length * right.length)
      whole := 3 * common * (left.length * right.length) }

/-- From which ratio on two names are similar. -/
def threshold : Ratio := ⟨7, 10⟩

/-- Whether two names are similar. -/
def similar (left right : List Char) : Bool :=
  threshold.atMost (ratio left right)

/-- The candidate that is most similar to a name, if any is similar; of equally similar ones
the last. -/
def closest? (name : List Char) (candidates : List String) : Option String :=
  (candidates.filter fun candidate => similar name candidate.toList).foldl
    (fun best candidate =>
      match best with
      | none => some candidate
      | some earlier =>
        if (ratio name earlier.toList).atMost (ratio name candidate.toList) then some candidate
        else best) none

end Similarity

end ForthAsm
