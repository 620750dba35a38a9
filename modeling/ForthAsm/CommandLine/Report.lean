import ForthAsm.CommandLine.Invocation
import ForthAsm.Files.Artifact
import ForthAsm.Log.Setting

/-!
# Reports

What the command line gives back: a status, the answer to a request, and everything that is
said about a compilation. Warnings about the setting of the log come first, and log records
come before the failure or the diagnostics, which are always shown, whatever the filter of the
log is.
-/

namespace ForthAsm

/-- What a process leaves besides files. -/
structure Report where
  /-- The exit status. -/
  status : UInt8
  /-- The standard output. -/
  output : String
  /-- The standard error stream. -/
  errors : String
  deriving DecidableEq, Repr

namespace Usage

/-- The name of the file that a compilation writes. -/
def outputPath : String := "code.s"

/-- How the command line is written, with an option that is in use. -/
def lineWith (option : Option String) : String :=
  "Usage: forthc " ++ (option.elim "" (· ++ " ")) ++ "<SOURCE>\n"

/-- How the command line is written. -/
def line : String := lineWith none

/-- The answer to a request for help. -/
def help : String :=
  "Ahead-of-time compiler from a small Forth subset to x86-64 AT&T assembly\n\n" ++ line ++
    "\nArguments:\n  <SOURCE>  Forth source file to compile\n" ++
    "\nOptions:\n  -h, --help     Print help\n  -V, --version  Print version\n"

/-- The answer to a request for the version. -/
def version : String := "forthc 0.1.0\n"

/-- Where to find help. -/
def hint : String := "\nFor more information, try '--help'.\n"

end Usage

namespace UsageError

/-- An argument as it is shown, without what a terminal would take for orders. -/
def shown (argument : String) : String :=
  "'" ++ Plain.strip argument ++ "'"

/-- What is wrong, in words. -/
def explanation : UsageError → String
  | missingSource => "the following required arguments were not provided:\n  <SOURCE>\n"
  | emptySource => "a value is required for '<SOURCE>' but none was supplied\n"
  | extraArgument argument => "unexpected argument " ++ shown argument ++ " found\n"
  | unknownOption option none =>
    "unexpected argument " ++ shown option ++ " found\n\n  tip: to pass " ++ shown option ++
      " as a value, use " ++ shown ("-- " ++ option) ++ "\n"
  | unknownOption option (some similar) =>
    "unexpected argument " ++ shown option ++ " found\n\n  tip: a similar argument exists: " ++
      shown similar ++ "\n"
  | unexpectedValue option value =>
    "unexpected value " ++ shown value ++ " for " ++ shown option ++
      " found; no more were expected\n"

/-- The way to write the command line that is shown with an error, if one is. It holds the
option that was meant. -/
def usage : UsageError → String
  | emptySource => ""
  | unknownOption _ similar => "\n" ++ Usage.lineWith similar
  | unexpectedValue option _ => "\n" ++ Usage.lineWith (some option)
  | _ => "\n" ++ Usage.line

/-- The full text of an error. -/
def message (problem : UsageError) : String :=
  "error: " ++ problem.explanation ++ problem.usage ++ Usage.hint

end UsageError

namespace Report

/-- A diagnostic about a source file, on a line of its own. -/
def diagnosticLine (source : String) (diagnostic : Diagnostic) : String :=
  source ++ ":" ++ diagnostic.position.text ++ ": " ++ diagnostic.message ++ "\n"

/-- The diagnostics about a source file, each on a line of its own. -/
def diagnosticLines (source : String) (diagnostics : List Diagnostic) : String :=
  diagnostics.foldl (fun written diagnostic => written ++ diagnosticLine source diagnostic) ""

/-- The report on a source file and how its compilation ended. Words that were skipped do not
make a compilation fail. -/
def ofCompilation (filter : Filter) (source : String)
    (result : Logged (Except CompileFailure Compilation)) : Report :=
  match result.outcome with
  | .ok compiled =>
    ⟨0, "", filter.report result.log ++ diagnosticLines source compiled.diagnostics⟩
  | .error failure => ⟨1, "", filter.report result.log ++ failure.message ++ "\n"⟩

/-- The answer to a request for help. -/
def help : Report := ⟨0, Usage.help, ""⟩

/-- The answer to a request for the version. -/
def version : Report := ⟨0, Usage.version, ""⟩

/-- The report on a command line that cannot be followed. -/
def ofMisuse (problem : UsageError) : Report := ⟨2, "", problem.message⟩

/-- The report after the warnings about a setting of the log. -/
def warned (setting : Setting) (report : Report) : Report :=
  { report with errors := setting.warnings ++ report.errors }

end Report

namespace FileSystem

variable {m : Type → Type} [Monad m] {Handle : Type} (system : FileSystem m Handle)

/-- Do what a command line asks for on a file system, with a filter for the log. -/
def follow (filter : Filter) : Invocation → m Report
  | .compile source => do
    return Report.ofCompilation filter source (← system.compile source Usage.outputPath)
  | .help => return Report.help
  | .version => return Report.version
  | .misuse problem => return Report.ofMisuse problem

/-- Follow a command line on a file system, with a setting for the log. -/
def run (setting : Setting) (arguments : List String) : m Report := do
  return (← system.follow setting.filter (Invocation.ofArguments arguments)).warned setting

end FileSystem

/-- Follow a command line in a tree of files, with a setting for the log. -/
def Tree.run (tree : Tree) (setting : Setting) (arguments : List String) : Report × Tree :=
  (freeSystem.run setting arguments).run tree

end ForthAsm
