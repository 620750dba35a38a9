/-!
# Sets of characters

A set of characters is kept as the numbers at which membership changes, in ascending order:
below the first one nothing is a member, from there up to the next one everything is, and so
on. Sets with the same members have the same changes. The numbers between the two stretches
of characters stand for no character, and a range that ends before them reaches over them.

Main statement: `pairwise_sweep`, the changes of two sets that are combined are in ascending
order again.
-/

namespace ForthAsm

/-- A set of characters. -/
structure CharacterSet where
  /-- The numbers at which membership changes. -/
  changes : List Nat
  /-- Each change comes behind the one before it. -/
  ascending : changes.Pairwise (· < ·)
  deriving DecidableEq, Repr

namespace CharacterSet

/-- Whether a number is inside after some changes, the first of which comes from inside or
from outside. -/
def isInside (number : Nat) : Bool → List Nat → Bool
  | inside, [] => inside
  | inside, change :: changes =>
    if number < change then inside else isInside number (!inside) changes

/-- Whether a set holds a character. -/
def contains (set : CharacterSet) (character : Char) : Bool :=
  isInside character.toNat false set.changes

/-- A change from one value to another at a place, if the values differ. -/
def changeAt (place : Nat) (before after : Bool) : List Nat :=
  if before = after then [] else [place]

/-- The changes of what a rule says of two rows of changes. -/
def sweep (rule : Bool → Bool → Bool) (inLeft inRight : Bool) :
    List Nat → List Nat → List Nat
  | [], [] => []
  | left :: lefts, [] =>
    changeAt left (rule inLeft inRight) (rule (!inLeft) inRight) ++
      sweep rule (!inLeft) inRight lefts []
  | [], right :: rights =>
    changeAt right (rule inLeft inRight) (rule inLeft (!inRight)) ++
      sweep rule inLeft (!inRight) [] rights
  | left :: lefts, right :: rights =>
    if left < right then
      changeAt left (rule inLeft inRight) (rule (!inLeft) inRight) ++
        sweep rule (!inLeft) inRight lefts (right :: rights)
    else if right < left then
      changeAt right (rule inLeft inRight) (rule inLeft (!inRight)) ++
        sweep rule inLeft (!inRight) (left :: lefts) rights
    else
      changeAt left (rule inLeft inRight) (rule (!inLeft) (!inRight)) ++
        sweep rule (!inLeft) (!inRight) lefts rights
  termination_by lefts rights => lefts.length + rights.length

/-- A change happens where it is said to. -/
theorem eq_of_mem_changeAt {place number : Nat} {before after : Bool}
    (there : number ∈ changeAt place before after) : number = place := by
  unfold changeAt at there
  split at there <;> simp_all

/-- Nothing changes but where one of the two rows does. -/
theorem mem_of_mem_sweep {rule : Bool → Bool → Bool} {inLeft inRight : Bool}
    {lefts rights : List Nat} {number : Nat}
    (there : number ∈ sweep rule inLeft inRight lefts rights) :
    number ∈ lefts ∨ number ∈ rights := by
  fun_induction sweep rule inLeft inRight lefts rights with
  | case1 => simp at there
  | case2 inLeft inRight left lefts ih =>
    rcases List.mem_append.mp there with first | later
    · exact .inl (by simp [eq_of_mem_changeAt first])
    · exact (ih later).imp (List.mem_cons_of_mem _) id
  | case3 inLeft inRight right rights ih =>
    rcases List.mem_append.mp there with first | later
    · exact .inr (by simp [eq_of_mem_changeAt first])
    · exact (ih later).imp id (List.mem_cons_of_mem _)
  | case4 inLeft inRight left lefts right rights below ih =>
    rcases List.mem_append.mp there with first | later
    · exact .inl (by simp [eq_of_mem_changeAt first])
    · exact (ih later).imp (List.mem_cons_of_mem _) id
  | case5 inLeft inRight left lefts right rights notBelow above ih =>
    rcases List.mem_append.mp there with first | later
    · exact .inr (by simp [eq_of_mem_changeAt first])
    · exact (ih later).imp id (List.mem_cons_of_mem _)
  | case6 inLeft inRight left lefts right rights notBelow notAbove ih =>
    rcases List.mem_append.mp there with first | later
    · exact .inl (by simp [eq_of_mem_changeAt first])
    · exact (ih later).imp (List.mem_cons_of_mem _) (List.mem_cons_of_mem _)

/-- A change at a place before ascending changes behind it keeps the order. -/
theorem pairwise_changeAt {place : Nat} {before after : Bool} {changes : List Nat}
    (ascending : changes.Pairwise (· < ·)) (behind : ∀ change ∈ changes, place < change) :
    (changeAt place before after ++ changes).Pairwise (· < ·) := by
  unfold changeAt
  split
  · exact ascending
  · exact List.pairwise_cons.mpr ⟨behind, ascending⟩

/-- All changes of two rows come behind a place, if the rows do. -/
theorem lt_of_mem_sweep {rule : Bool → Bool → Bool} {inLeft inRight : Bool}
    {lefts rights : List Nat} {place : Nat} (left : ∀ change ∈ lefts, place < change)
    (right : ∀ change ∈ rights, place < change) :
    ∀ change ∈ sweep rule inLeft inRight lefts rights, place < change :=
  fun change there => (mem_of_mem_sweep there).elim (left change) (right change)

/-- What comes behind the first of ascending changes also comes behind what is before it. -/
theorem lt_of_mem_cons {place first : Nat} {changes : List Nat} (before : place < first)
    (ascending : (first :: changes).Pairwise (· < ·)) :
    ∀ change ∈ first :: changes, place < change := by
  intro change there
  rcases List.mem_cons.mp there with same | later
  · exact same ▸ before
  · exact Nat.lt_trans before ((List.pairwise_cons.mp ascending).1 change later)

/-- Two ascending rows give an ascending row. -/
theorem pairwise_sweep {rule : Bool → Bool → Bool} {inLeft inRight : Bool}
    {lefts rights : List Nat} (ascendingLeft : lefts.Pairwise (· < ·))
    (ascendingRight : rights.Pairwise (· < ·)) :
    (sweep rule inLeft inRight lefts rights).Pairwise (· < ·) := by
  fun_induction sweep rule inLeft inRight lefts rights with
  | case1 => exact .nil
  | case2 inLeft inRight left lefts ih =>
    have ⟨behind, later⟩ := List.pairwise_cons.mp ascendingLeft
    exact pairwise_changeAt (ih later .nil) (lt_of_mem_sweep behind (by simp))
  | case3 inLeft inRight right rights ih =>
    have ⟨behind, later⟩ := List.pairwise_cons.mp ascendingRight
    exact pairwise_changeAt (ih .nil later) (lt_of_mem_sweep (by simp) behind)
  | case4 inLeft inRight left lefts right rights below ih =>
    have ⟨behind, later⟩ := List.pairwise_cons.mp ascendingLeft
    exact pairwise_changeAt (ih later ascendingRight)
      (lt_of_mem_sweep behind (lt_of_mem_cons below ascendingRight))
  | case5 inLeft inRight left lefts right rights notBelow above ih =>
    have ⟨behind, later⟩ := List.pairwise_cons.mp ascendingRight
    exact pairwise_changeAt (ih ascendingLeft later)
      (lt_of_mem_sweep (lt_of_mem_cons above ascendingLeft) behind)
  | case6 inLeft inRight left lefts right rights notBelow notAbove ih =>
    have same : left = right := by omega
    subst same
    have ⟨behindLeft, laterLeft⟩ := List.pairwise_cons.mp ascendingLeft
    have ⟨behindRight, laterRight⟩ := List.pairwise_cons.mp ascendingRight
    exact pairwise_changeAt (ih laterLeft laterRight) (lt_of_mem_sweep behindLeft behindRight)

/-- Two sets combined by a rule. Characters that neither holds are not held. -/
def combine (rule : Bool → Bool → Bool) (left right : CharacterSet) : CharacterSet :=
  ⟨sweep rule false false left.changes right.changes,
    pairwise_sweep left.ascending right.ascending⟩

/-- No character. -/
def empty : CharacterSet := ⟨[], .nil⟩

/-- The first number behind all characters. -/
def limit : Nat := 0x110000

/-- Every character. -/
def all : CharacterSet := ⟨[0, limit], by decide⟩

/-- The number of the next character, over the numbers that stand for none. -/
def next (number : Nat) : Nat :=
  if number = 0xd7ff then 0xe000 else number + 1

/-- The number of the character before the one with a number. -/
def previous (number : Nat) : Nat :=
  if number = 0xe000 then 0xd7ff else number - 1

/-- All characters from one number to another. -/
def range (first last : Nat) : CharacterSet :=
  if ordered : first ≤ last then ⟨[first, next last], by simp [next]; split <;> omega⟩ else empty

/-- The set of a single character. -/
def single (character : Char) : CharacterSet := range character.toNat character.toNat

/-- The characters of one set or of another. -/
def union (left right : CharacterSet) : CharacterSet := combine (· || ·) left right

/-- The characters of two sets at once. -/
def intersection (left right : CharacterSet) : CharacterSet := combine (· && ·) left right

/-- The characters of one set without those of another. -/
def difference (left right : CharacterSet) : CharacterSet := combine (· && !·) left right

/-- The characters of exactly one of two sets. -/
def symmetricDifference (left right : CharacterSet) : CharacterSet := combine (· != ·) left right

/-- The characters that are not in a set. -/
def complement (set : CharacterSet) : CharacterSet := all.difference set

/-- The set of all characters in some ranges. -/
def ofRanges (ranges : List (Nat × Nat)) : CharacterSet :=
  ranges.foldl (fun set (first, last) => set.union (range first last)) empty

/-- The ranges of a row of changes, from each change inside to the next one. -/
def rangesOf : List Nat → List (Nat × Nat)
  | first :: behind :: changes => (first, previous behind) :: rangesOf changes
  | _ => []

/-- The ranges of a set, in ascending order. -/
def ranges (set : CharacterSet) : List (Nat × Nat) := rangesOf set.changes

/-- The only character of a set that holds one. -/
def only? (set : CharacterSet) : Option Char :=
  match set.ranges with
  | [(first, last)] => if first = last then some (Char.ofNat first) else none
  | _ => none

/-- Whether a set holds none but the first 128 characters. -/
def isNarrow (set : CharacterSet) : Bool := set.changes.all (· ≤ 0x80)

/-- The capital letters from A to Z. -/
def capitals : CharacterSet := range 'A'.toNat 'Z'.toNat

/-- The small letters from a to z. -/
def smalls : CharacterSet := range 'a'.toNat 'z'.toNat

/-- The distance from a capital letter to its small one. -/
def caseDistance : Nat := 'a'.toNat - 'A'.toNat

/-- The characters of a set, and its letters from A to Z in both cases. -/
def anyCase (set : CharacterSet) : CharacterSet :=
  let lowered := (set.intersection capitals).ranges.map fun (first, last) =>
    (first + caseDistance, last + caseDistance)
  let raised := (set.intersection smalls).ranges.map fun (first, last) =>
    (first - caseDistance, last - caseDistance)
  (set.union (ofRanges lowered)).union (ofRanges raised)

/-- The digits from 0 to 9. -/
def digits : CharacterSet := range '0'.toNat '9'.toNat

/-- The letters from A to Z in both cases. -/
def letters : CharacterSet := capitals.union smalls

/-- The characters that words are made of. -/
def wordCharacters : CharacterSet := (digits.union letters).union (single '_')

/-- The blanks and line ends. -/
def spaces : CharacterSet := (range '\t'.toNat '\r'.toNat).union (single ' ')

/-- The sets that have a name in a pattern; all of them lie among the first 128 characters. -/
def named? : String → Option CharacterSet
  | "alnum" => some (digits.union letters)
  | "alpha" => some letters
  | "ascii" => some (range 0 0x7f)
  | "blank" => some ((single '\t').union (single ' '))
  | "cntrl" => some ((range 0 0x1f).union (range 0x7f 0x7f))
  | "digit" => some digits
  | "graph" => some (range '!'.toNat '~'.toNat)
  | "lower" => some smalls
  | "print" => some (range ' '.toNat '~'.toNat)
  | "punct" => some ((range '!'.toNat '~'.toNat).difference (digits.union letters))
  | "space" => some spaces
  | "upper" => some capitals
  | "word" => some wordCharacters
  | "xdigit" => some ((digits.union (range 'A'.toNat 'F'.toNat)).union (range 'a'.toNat 'f'.toNat))
  | _ => none

end CharacterSet

end ForthAsm
