import ForthAsm.Source.Word
import ForthAsm.Instruction.Basic
import ForthAsm.Log.Quoted

/-!
# Log records

What the compiler says about its work while it works: which instruction each word became,
what a finished program holds, and what was written where. A record keeps what it is about;
its wording, its level and the part of the compiler it comes from are functions of it.
-/

namespace ForthAsm

/-- How important a record is, the most important first. -/
inductive Level where
  | error
  | warn
  | info
  | debug
  | trace
  deriving DecidableEq, Repr

namespace Level

/-- The place of a level in the order of importance. -/
def rank : Level → Nat
  | error => 1
  | warn => 2
  | info => 3
  | debug => 4
  | trace => 5

/-- The name of a level. -/
def name : Level → String
  | error => "ERROR"
  | warn => "WARN"
  | info => "INFO"
  | debug => "DEBUG"
  | trace => "TRACE"

end Level

/-- Something the compiler did. -/
inductive Record where
  /-- A word became an instruction. -/
  | taken (word : Word) (instruction : Instruction)
  /-- All words were taken. -/
  | finished (blocks dumps diagnostics : Nat)
  /-- A number of bytes was written to a file. -/
  | wrote (bytes : Nat) (path : String)
  deriving DecidableEq, Repr

/-- The name of an instruction and what it carries. -/
def Instruction.description : Instruction → String
  | push value => "PushNumber(" ++ toString value.toNat ++ ")"
  | duplicate => "Duplicate"
  | multiply => "Multiply"
  | print => "Print"
  | add => "Add"
  | swap => "Swap"
  | nip => "Nip"
  | tuck => "Tuck"
  | dump loop => "StackDump(LabelId(" ++ toString loop.index.toNat ++ "))"
  | unrecognized text => "Unrecognized(" ++ Quoted.quote text ++ ")"

namespace Record

/-- Every record is meant for those who look into the compiler's work. -/
def level (_record : Record) : Level := .debug

/-- The part of the compiler that a record comes from. -/
def target : Record → String
  | taken _ _ => "forthc::codegen"
  | finished _ _ _ => "forthc::codegen"
  | wrote _ _ => "forthc::emitter"

/-- The text of a record. -/
def message : Record → String
  | taken word instruction =>
    word.position.text ++ ": " ++ word.text ++ " -> " ++ instruction.description ++ " " ++
      instruction.effect.text
  | finished blocks dumps diagnostics =>
    "lowered " ++ toString blocks ++ " fragments, " ++ toString dumps ++ " stack dumps, " ++
      toString diagnostics ++ " diagnostics"
  | wrote bytes path => "wrote " ++ toString bytes ++ " bytes to " ++ path

end Record

/-- An outcome and what was logged on the way to it. -/
structure Logged (α : Type) where
  /-- What came of the work. -/
  outcome : α
  /-- The records in the order in which they were made. -/
  log : Array Record

end ForthAsm
