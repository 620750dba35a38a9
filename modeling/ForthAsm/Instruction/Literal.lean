/-!
# Literals

A literal is a non-empty run of the digits 0 to 9, of any length and with any number of
leading zeros. Its value decides whether it fits a machine word, not its length.

`decimal` is the value of a run of digits. `decimalBelow` computes it and gives up as soon as
the value reaches a limit, so that a long run costs no more than its length; the main
statement `decimalBelow_eq` says that it gives up exactly when the value is too large.
-/

namespace ForthAsm.Literal

/-- The value of a digit. -/
def digitValue (digit : Char) : Nat :=
  digit.toNat - '0'.toNat

/-- The value of a number written before a digit, with that digit behind it. -/
def shift (total : Nat) (digit : Char) : Nat :=
  total * 10 + digitValue digit

/-- The value of a run of digits in base ten. -/
def decimal (digits : List Char) : Nat :=
  digits.foldl shift 0

/-- The value of the digits behind a number, if it stays below a limit. -/
def decimalBelow (limit total : Nat) : List Char → Option Nat
  | [] => if total < limit then some total else none
  | digit :: digits =>
    if total < limit then decimalBelow limit (shift total digit) digits else none

/-- More digits never make a number smaller. -/
theorem le_foldl_shift (total : Nat) (digits : List Char) :
    total ≤ digits.foldl shift total := by
  induction digits generalizing total with
  | nil => exact Nat.le_refl total
  | cons digit digits ih =>
    have grown : total ≤ shift total digit := by
      unfold shift
      omega
    exact Nat.le_trans grown (ih (shift total digit))

/-- Giving up early changes nothing: the value is found exactly if it is below the limit. -/
theorem decimalBelow_eq (limit total : Nat) (digits : List Char) :
    decimalBelow limit total digits =
      if digits.foldl shift total < limit then some (digits.foldl shift total) else none := by
  induction digits generalizing total with
  | nil => rfl
  | cons digit digits ih =>
    rw [decimalBelow, ih, List.foldl_cons]
    by_cases small : total < limit
    · simp [small]
    · have bound := le_foldl_shift (shift total digit) digits
      have grown : total ≤ shift total digit := by
        unfold shift
        omega
      have large : ¬digits.foldl shift (shift total digit) < limit := by omega
      simp [small, large]

/-- The number of values of a machine word. -/
def wordValues : Nat := UInt64.size

/-- Whether a text is a literal. -/
def isNumeral (text : String) : Bool :=
  !text.toList.isEmpty && text.toList.all Char.isDigit

/-- The machine word that a literal stands for, if its value fits. -/
def value? (text : String) : Option UInt64 :=
  (decimalBelow wordValues 0 text.toList).map UInt64.ofNat

/-- A literal stands for its value exactly if the value fits a machine word. -/
theorem value?_eq (text : String) :
    value? text =
      if decimal text.toList < wordValues then some (UInt64.ofNat (decimal text.toList))
      else none := by
  rw [value?, decimalBelow_eq, ← decimal]
  split <;> rfl

end ForthAsm.Literal
