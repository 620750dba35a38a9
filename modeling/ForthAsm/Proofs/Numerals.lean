import ForthAsm.Instruction.Literal
import Mathlib.Data.Nat.Digits.Defs

/-!
# Numerals

Runs of digits and their values, told without the reading of literals: a run of digits is a text
that is not empty and has only the characters from 0 to 9, and its value is the sum of its digits,
each counted by its place. Literals are exactly these texts, and they are read as these values,
whatever the length of a run and the number of its leading zeros.

Main statements: `Literal.isNumeral_iff`, `Literal.value?_eq_some_iff` and
`Literal.value?_eq_none_iff`.
-/

namespace ForthAsm

namespace Literal

/-- A text that is a run of the digits 0 to 9. -/
def IsDigits (text : String) : Prop :=
  text ≠ "" ∧ ∀ character ∈ text.toList, '0' ≤ character ∧ character ≤ '9'

/-- Whether a text is a run of digits can be decided character by character. -/
instance (text : String) : Decidable (IsDigits text) :=
  decidable_of_iff
    (text ≠ "" ∧ text.toList.all fun character => '0' ≤ character && character ≤ '9')
    (by simp [IsDigits])

/-- The value of a run of digits: the last digit counts once, and each digit before it counts ten
times as much as the one behind it. -/
def placeValue (text : String) : Nat :=
  Nat.ofDigits 10 (text.toList.reverse.map fun digit => digit.toNat - '0'.toNat)

/-- The literals are the runs of digits. -/
theorem isNumeral_iff {text : String} : isNumeral text = true ↔ IsDigits text := by
  have digit : ∀ character : Char,
      character.isDigit = true ↔ '0' ≤ character ∧ character ≤ '9' := by
    intro character
    simp only [Char.isDigit, Bool.and_eq_true, decide_eq_true_eq]
    rfl
  have empty : text.toList = [] ↔ text = "" := String.toList_eq_nil_iff
  simp only [isNumeral, IsDigits, Bool.and_eq_true, Bool.not_eq_true', List.isEmpty_eq_false_iff,
    List.all_eq_true, digit, ne_eq, empty]

/-- Digits have the same value read from the first to the last as by their places. -/
theorem decimal_eq_placeValue (text : String) : decimal text.toList = placeValue text := by
  have places : ∀ digits : List Char, decimal digits.reverse =
      Nat.ofDigits 10 (digits.map fun digit => digit.toNat - '0'.toNat) := by
    intro digits
    induction digits with
    | nil => rfl
    | cons digit digits ih =>
      have step : decimal (digit :: digits).reverse =
          decimal digits.reverse * 10 + (digit.toNat - '0'.toNat) := by
        rw [List.reverse_cons, decimal, List.foldl_append]
        rfl
      rw [step, ih, List.map_cons, Nat.ofDigits_cons]
      omega
  have read := places text.toList.reverse
  rwa [List.reverse_reverse] at read

/-- A run of digits has a machine word exactly if the word has its value. -/
theorem value?_eq_some_iff {text : String} {value : UInt64} :
    value? text = some value ↔ placeValue text = value.toNat := by
  have limit : wordValues = 2 ^ 64 := rfl
  have bound := value.toNat_lt
  rw [value?_eq, decimal_eq_placeValue, limit]
  by_cases small : placeValue text < 2 ^ 64
  · rw [if_pos small, Option.some.injEq, ← UInt64.toNat_inj, UInt64.toNat_ofNat',
      Nat.mod_eq_of_lt small]
  · rw [if_neg small]
    constructor
    · intro absent
      contradiction
    · intro same
      omega

/-- A run of digits has no machine word exactly if its value takes more than 64 bits. -/
theorem value?_eq_none_iff {text : String} : value? text = none ↔ 2 ^ 64 ≤ placeValue text := by
  have limit : wordValues = 2 ^ 64 := rfl
  rw [value?_eq, decimal_eq_placeValue, limit]
  by_cases small : placeValue text < 2 ^ 64
  · rw [if_pos small]
    constructor
    · intro absent
      contradiction
    · intro large
      omega
  · rw [if_neg small]
    exact ⟨fun _ => Nat.le_of_not_lt small, fun _ => rfl⟩

end Literal

end ForthAsm
