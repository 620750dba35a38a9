import ForthAsm.CommandLine.Report

/-!
# The command-line program

Answers the calls on files with the files of the machine, follows the command line on them, and
shows the report. What an answer means for the outcome is decided elsewhere.
-/

namespace ForthAsm

/-- The number of a system error, which some operations report with a minus sign. -/
def systemNumber (code : UInt32) : Nat :=
  code.toInt32.toInt.natAbs

/-- The failure with the number of a system error and with its description. -/
def IoFailure.ofNumber (number : Nat) (description : String) : IoFailure :=
  match number with
  | 2 => .notFound
  | 20 => .notDirectory
  | 21 => .isDirectory
  | 36 => .nameTooLong
  | _ => .other (description ++ " (os error " ++ toString number ++ ")")

/-- The failure that a system error stands for. -/
def IoFailure.ofSystem : IO.Error → IoFailure
  | .noFileOrDirectory _ code details => ofNumber (systemNumber code) details
  | .inappropriateType _ code details => ofNumber (systemNumber code) details
  | .invalidArgument _ code details => ofNumber (systemNumber code) details
  | .permissionDenied _ code details => ofNumber (systemNumber code) details
  | failure => .other (toString failure)

/-- Attempt a file operation. -/
def attempt {α : Type} (operation : IO α) : IO (Except IoFailure α) := do
  try
    return .ok (← operation)
  catch failure =>
    return .error (IoFailure.ofSystem failure)

/-- The files of the machine. -/
def FileSystem.machine : FileSystem IO IO.FS.Handle where
  openSource path := do
    match ← attempt (IO.FS.Handle.mk path .read) with
    | .error cause => return .error cause
    | .ok handle =>
      match ← attempt handle.readBinToEnd with
      | .error cause => return .ok [.failure cause]
      | .ok content => return .ok (Delivery.ofContent content.toList)
  create path := attempt (IO.FS.Handle.mk path .write)
  append handle content := attempt do
    handle.write ⟨content.toArray⟩
    handle.flush

/-- Show a report and give back its status. -/
def Report.deliver (report : Report) : IO UInt32 := do
  IO.print report.output
  IO.eprint report.errors
  return report.status.toUInt32

end ForthAsm

open ForthAsm in
/-- Follow the command line; the environment sets the log filter. -/
def main (arguments : List String) : IO UInt32 := do
  let setting := Setting.ofText (← IO.getEnv "RUST_LOG")
  (← FileSystem.machine.run setting arguments).deliver
