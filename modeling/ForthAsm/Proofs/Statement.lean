import ForthAsm.Assembly.Operation
import ForthAsm.Proofs.Numerals
import ForthAsm.Text.Cut

/-!
# Assembly statements

What an assembler makes of a text in AT&T syntax. A line is empty, a directive, the definition
of a symbol or an instruction; an instruction is a mnemonic with operands behind it that are
divided by commas. Symbols are names and nothing more, so two places refer to the same thing
exactly if they spell it in the same way. A text with a line that makes no sense, or with a
symbol that is defined twice, is refused.

The reader here knows nothing about the programs that are written elsewhere in this library;
that it reads them as they are meant is proved in `ForthAsm.Proofs.Reading`.
-/

namespace ForthAsm

/-- The name of a machine instruction. -/
inductive Mnemonic where
  | push
  | pop
  | mov
  | movabs
  | lea
  | add
  | sub
  | imul
  | and
  | xor
  | cmp
  | jmp
  | jl
  | call
  | syscall
  deriving DecidableEq, Repr

/-- The instruction that a word names. -/
def Mnemonic.ofName? : String → Option Mnemonic
  | "push" => some .push
  | "pop" => some .pop
  | "mov" => some .mov
  | "movabs" => some .movabs
  | "lea" => some .lea
  | "add" => some .add
  | "sub" => some .sub
  | "imul" => some .imul
  | "and" => some .and
  | "xor" => some .xor
  | "cmp" => some .cmp
  | "jmp" => some .jmp
  | "jl" => some .jl
  | "call" => some .call
  | "syscall" => some .syscall
  | _ => none

/-- The register that a word names. -/
def Register.ofName? : String → Option Register
  | "rax" => some .rax
  | "rbx" => some .rbx
  | "rcx" => some .rcx
  | "rsi" => some .rsi
  | "rdi" => some .rdi
  | "rsp" => some .rsp
  | "rbp" => some .rbp
  | "r12" => some .r12
  | _ => none

/-- The register whose lower half a word names. -/
def Register.ofLowName? : String → Option Register
  | "eax" => some .rax
  | "ebx" => some .rbx
  | "ecx" => some .rcx
  | "esi" => some .rsi
  | "edi" => some .rdi
  | "esp" => some .rsp
  | "ebp" => some .rbp
  | "r12d" => some .r12
  | _ => none

/-- An operand of an instruction. -/
inductive Operand where
  /-- A value. -/
  | immediate (value : Int)
  /-- A register. -/
  | register (name : Register)
  /-- The lower half of a register. -/
  | lowRegister (name : Register)
  /-- The memory that a register points to. -/
  | memory (pointer : Register)
  /-- The memory where a symbol stands, relative to the instruction. -/
  | relative (symbol : String)
  /-- The place where a symbol stands. -/
  | symbol (name : String)
  deriving DecidableEq, Repr

/-- What a line of assembly text says. -/
inductive Statement where
  /-- Nothing. -/
  | blank
  /-- What follows belongs to a part of the program file. -/
  | segment (name : String)
  /-- A symbol can be seen from outside. -/
  | global (symbol : String)
  /-- A symbol stands here. -/
  | label (symbol : String)
  /-- Characters stand here, with a NUL behind them. -/
  | string (content : List Char)
  /-- An instruction stands here. -/
  | instruction (mnemonic : Mnemonic) (operands : List Operand)
  deriving DecidableEq, Repr

/-- The natural number that some digits write. -/
def natural? (digits : List Char) : Option Nat :=
  if Literal.IsDigits (String.ofList digits) then
    some (Literal.placeValue (String.ofList digits))
  else none

/-- The integer that some digits write, perhaps behind a minus sign. -/
def integer? : List Char → Option Int
  | '-' :: digits => (natural? digits).map fun size => -(size : Int)
  | digits => (natural? digits).map fun size => (size : Int)

/-- Whether a character can be part of a symbol. -/
def isSymbolCharacter (character : Char) : Bool :=
  character.isAlphanum || character == '_' || character == '.'

/-- The symbol that some characters spell; it does not start with a digit. -/
def symbol? : List Char → Option String
  | [] => none
  | first :: others =>
    if !first.isDigit && (first :: others).all isSymbolCharacter then
      some (String.ofList (first :: others))
    else none

namespace Operand

/-- The operand behind a percent sign. -/
def ofRegisterName? (name : String) : Option Operand :=
  match Register.ofName? name with
  | some whole => some (.register whole)
  | none => (Register.ofLowName? name).map .lowRegister

/-- The operand that consists of a symbol, of a place in brackets or of both. -/
def ofPlace? (name place : List Char) : Option Operand :=
  match place with
  | [] => (symbol? name).map .symbol
  | ['(', '%', 'r', 'i', 'p', ')'] => (symbol? name).map .relative
  | '(' :: '%' :: pointer =>
    if name.isEmpty && pointer.getLast? = some ')' then
      (Register.ofName? (String.ofList pointer.dropLast)).map .memory
    else none
  | _ => none

/-- The operand that some characters write. -/
def ofText? : List Char → Option Operand
  | '$' :: value => (integer? value).map .immediate
  | '%' :: name => ofRegisterName? (String.ofList name)
  | text => ofPlace? (text.takeWhile (· != '(')) (text.dropWhile (· != '('))

end Operand

namespace Statement

/-- The characters up to the closing quote of a string, which must be the last one. -/
def unquote : List Char → Option (List Char)
  | [] => none
  | ['"'] => some []
  | '\\' :: 'n' :: later => (unquote later).map ('\n' :: ·)
  | character :: later =>
    if character = '"' || character = '\\' then none else (unquote later).map (character :: ·)

/-- The directive of a name without its dot and of the characters behind it. -/
def directive? (name : String) (argument : List Char) : Option Statement :=
  match name, argument with
  | "section", _ => some (.segment (String.ofList argument))
  | "globl", _ => (symbol? argument).map .global
  | "asciz", '"' :: quoted => (unquote quoted).map .string
  | _, _ => none

/-- The operands of an instruction, each behind blanks. -/
def operands? : List Char → Option (List Operand)
  | [] => some []
  | text => (cutAt ',' text).mapM fun operand => Operand.ofText? (operand.dropWhile (· == ' '))

/-- The statement that a line makes behind its margin. -/
def ofContent? : List Char → Option Statement
  | [] => some .blank
  | '.' :: content =>
    directive? (String.ofList (content.takeWhile (· != ' ')))
      ((content.dropWhile (· != ' ')).drop 1)
  | content =>
    if content.getLast? = some ':' then (symbol? content.dropLast).map .label
    else do
      let mnemonic ← Mnemonic.ofName? (String.ofList (content.takeWhile (· != ' ')))
      let operands ← operands? (content.dropWhile (· != ' '))
      some (.instruction mnemonic operands)

/-- The statement that a line makes. -/
def ofLine? (line : List Char) : Option Statement :=
  ofContent? (line.dropWhile (· == ' '))

/-- The symbol that a statement defines. -/
def defined? : Statement → Option String
  | label symbol => some symbol
  | _ => none

end Statement

/-- The symbols that some statements define, in order. -/
def Statement.symbols (statements : List Statement) : List String :=
  statements.filterMap Statement.defined?

/-- An assembly text as it is understood. -/
structure Listing where
  /-- What the lines say, in order. -/
  statements : List Statement
  /-- No symbol is defined twice. -/
  distinct : (Statement.symbols statements).Nodup

namespace Listing

/-- The listing of an assembly text. -/
def ofText? (text : String) : Option Listing := do
  let statements ← (cutAt '\n' text.toList).mapM Statement.ofLine?
  if distinct : (Statement.symbols statements).Nodup then some ⟨statements, distinct⟩ else none

/-- The number of the line where a symbol stands. -/
def place? (listing : Listing) (symbol : String) : Option Nat :=
  listing.statements.findIdx? (· == .label symbol)

/-- The string behind a symbol that an address belongs to, in some statements. -/
def stringIn? (address : String → UInt64) (pointer : UInt64) :
    List Statement → Option (List Char)
  | [] => none
  | .label symbol :: .string content :: later =>
    if address symbol = pointer then some content else stringIn? address pointer later
  | _ :: later => stringIn? address pointer later

/-- The string that a pointer leads to, given the addresses of the symbols. -/
def stringAt? (listing : Listing) (address : String → UInt64) (pointer : UInt64) :
    Option (List Char) :=
  stringIn? address pointer listing.statements

end Listing

end ForthAsm
