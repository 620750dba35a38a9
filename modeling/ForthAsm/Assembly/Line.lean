import ForthAsm.Assembly.Operation

/-!
# Lines of assembly text

An assembly text is a sequence of lines, each ended by a line feed. A line is empty, defines
a label, holds a directive or holds an operation behind some blanks.
-/

namespace ForthAsm

/-- A part of the program file. -/
inductive Segment where
  /-- Data that is only read. -/
  | readOnlyData
  /-- Machine code. -/
  | code
  deriving DecidableEq, Repr

/-- The name of a part of the program file. -/
def Segment.name : Segment → String
  | readOnlyData => ".rodata"
  | code => ".text"

/-- A line of assembly text. -/
inductive Line where
  /-- An empty line. -/
  | blank
  /-- What follows belongs to a part of the program file. -/
  | segment (kind : Segment)
  /-- A label can be seen from outside. -/
  | global (place : Label)
  /-- The label stands here. -/
  | label (place : Label)
  /-- Characters ended by a NUL, given as they stand between the quotes. -/
  | characters (quoted : String)
  /-- An operation behind a number of blanks. -/
  | operation (indent : Nat) (content : Operation)
  deriving DecidableEq, Repr

namespace Line

/-- The blanks before the operations and the data of a program. -/
def margin : Nat := 4

/-- A number of blanks. -/
def blanks (count : Nat) : String :=
  "".pushn ' ' count

/-- The text of a line without its line feed. -/
def text : Line → String
  | blank => ""
  | segment kind => ".section " ++ kind.name
  | global place => ".globl " ++ place.name
  | label place => place.name ++ ":"
  | characters quoted => blanks margin ++ ".asciz \"" ++ quoted ++ "\""
  | operation indent content => blanks indent ++ content.text

/-- The text of some lines, each ended by a line feed. -/
def textOf (lines : List Line) : String :=
  lines.foldl (fun written line => written ++ line.text ++ "\n") ""

/-- Writing lines behind a text appends their text. -/
theorem foldl_text (written : String) (lines : List Line) :
    lines.foldl (fun written line => written ++ line.text ++ "\n") written =
      written ++ textOf lines := by
  induction lines generalizing written with
  | nil => simp [textOf]
  | cons line lines ih =>
    simp only [textOf, List.foldl_cons]
    rw [ih (written ++ line.text ++ "\n"), ih ("" ++ line.text ++ "\n")]
    simp [String.append_assoc]

/-- The first line stands before the others. -/
@[simp]
theorem textOf_cons (line : Line) (lines : List Line) :
    textOf (line :: lines) = line.text ++ "\n" ++ textOf lines := by
  rw [textOf, List.foldl_cons, foldl_text]
  simp

/-- The texts of two groups of lines stand one after the other. -/
@[simp]
theorem textOf_append (first second : List Line) :
    textOf (first ++ second) = textOf first ++ textOf second := by
  rw [textOf, List.foldl_append, foldl_text, ← textOf]

end Line

end ForthAsm
