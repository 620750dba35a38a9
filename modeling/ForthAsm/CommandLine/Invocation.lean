import ForthAsm.Text.Similarity

/-!
# Invocations

The command line takes one source file. Arguments are read from left to right: an option asks
for help or for the version, two dashes alone end the options, and anything else is the
source. The first argument that cannot be taken decides what is wrong; if it looks like a
long option that there is, that one is remembered.
-/

namespace ForthAsm

/-- What is wrong with a command line. -/
inductive UsageError where
  /-- No source is given. -/
  | missingSource
  /-- The source is the empty text. -/
  | emptySource
  /-- Something follows the source. -/
  | extraArgument (argument : String)
  /-- There is no such option, but perhaps a similar one. -/
  | unknownOption (option : String) (similar : Option String)
  /-- A value is given to an option that takes none. -/
  | unexpectedValue (option value : String)
  deriving DecidableEq, Repr

/-- What a command line asks for. -/
inductive Invocation where
  /-- Compile a source file. -/
  | compile (source : String)
  /-- Explain the command line. -/
  | help
  /-- Tell the version. -/
  | version
  /-- Nothing that can be done. -/
  | misuse (problem : UsageError)
  deriving DecidableEq, Repr

namespace Invocation

/-- How an argument is understood while options are still allowed. -/
inductive Argument where
  /-- The end of the options. -/
  | separator
  /-- A source file. -/
  | plain (text : String)
  /-- A request that is answered without a source. -/
  | request (answer : Invocation)
  /-- An argument that cannot be taken. -/
  | refused (problem : UsageError)
  deriving DecidableEq, Repr

/-- The request that a long option stands for. -/
def long? : String → Option Invocation
  | "help" => some help
  | "version" => some version
  | _ => none

/-- The names of the long options. -/
def longNames : List String := ["help", "version"]

/-- The request that a short option stands for. -/
def short? : Char → Option Invocation
  | 'h' => some help
  | 'V' => some version
  | _ => none

/-- A long option, without its dashes. A value may follow behind an equals sign. -/
def readLong (text : List Char) : Argument :=
  let name := String.ofList (text.takeWhile (· ≠ '='))
  match long? name with
  | none =>
    .refused (.unknownOption ("--" ++ name)
      ((Similarity.closest? name.toList longNames).map ("--" ++ ·)))
  | some answer =>
    match text.dropWhile (· ≠ '=') with
    | [] => .request answer
    | _ :: value => .refused (.unexpectedValue ("--" ++ name) (String.ofList value))

/-- An argument while options are still allowed. Of a cluster of short options the first one
decides, since each of them ends the reading. -/
def readArgument (text : String) : Argument :=
  match text.toList with
  | ['-', '-'] => .separator
  | '-' :: '-' :: option => readLong option
  | '-' :: option :: _ =>
    match short? option with
    | some answer => .request answer
    | none => .refused (.unknownOption ("-" ++ String.singleton option) none)
  | _ => .plain text

/-- What is asked for once a source is settled on. -/
def ofSource : Option String → Invocation
  | none => misuse .missingSource
  | some "" => misuse .emptySource
  | some source => compile source

/-- Take an argument that is not an option. -/
def settle (source : Option String) (text : String) : Except UsageError String :=
  match source with
  | none => .ok text
  | some _ => .error (.extraArgument text)

/-- Read arguments none of which is an option. -/
def readPlain (source : Option String) : List String → Invocation
  | [] => ofSource source
  | text :: arguments =>
    match settle source text with
    | .ok source => readPlain (some source) arguments
    | .error problem => misuse problem

/-- Read arguments among which options may be. An empty source is found out before a request
behind it is answered. -/
def read (source : Option String) : List String → Invocation
  | [] => ofSource source
  | text :: arguments =>
    match readArgument text with
    | .separator => readPlain source arguments
    | .request answer => if source = some "" then misuse .emptySource else answer
    | .refused problem => misuse problem
    | .plain text =>
      match settle source text with
      | .ok source => read (some source) arguments
      | .error problem => misuse problem

/-- What a command line asks for. -/
def ofArguments (arguments : List String) : Invocation :=
  read none arguments

end Invocation

end ForthAsm
