import ForthAsm.Proofs.Statement
import Mathlib.Logic.Function.Basic
import Mathlib.Logic.Relation

/-!
# A machine for listings

The part of an x86-64 machine that assembly listings of this library run on: registers and
addresses are 64-bit words, memory is made of bytes, and a word occupies eight of them with
the lowest one first. The machine stands at a line of its listing.

Routines that a listing calls are not part of it. A `Host` says where the symbols ended up and
what a routine leaves behind; it may leave anything, except that it keeps the registers that
belong to its caller and the memory from the stack pointer upwards. A number that is printed is
held back until everything is written out, and what is held back is lost when the process ends.

Where the machine has nothing to say there is no next state: at an instruction it does not
know, at a jump without a target or without a comparison before it, at a call that breaks the
rules of the called routine, and when the operating system takes over.
-/

namespace ForthAsm

/-- The bytes of the memory by their addresses. -/
abbrev Memory := UInt64 → UInt8

namespace Memory

/-- One of the eight bytes of a word, the lowest one first. -/
def byteOf (value : UInt64) (index : Nat) : UInt8 :=
  UInt8.ofNat (value.toNat >>> (8 * index))

/-- The memory after a word was stored at an address. -/
def store (memory : Memory) (address value : UInt64) : Memory := fun place =>
  if (place - address).toNat < 8 then byteOf value (place - address).toNat else memory place

/-- The word that stands at an address. -/
def load (memory : Memory) (address : UInt64) : UInt64 :=
  UInt64.ofNat ((List.range 8).foldr
    (fun index higher => (memory (address + UInt64.ofNat index)).toNat + 256 * higher) 0)

end Memory

/-- The word of a value of 32 bits, with its sign extended. -/
def extended (value : Int) : UInt64 :=
  UInt64.ofBitVec ((BitVec.ofInt 32 value).signExtend 64)

/-- The word of a value of 64 bits. -/
def wide (value : Int) : UInt64 :=
  UInt64.ofBitVec (BitVec.ofInt 64 value)

/-- The state of the machine. -/
structure Machine where
  /-- The number of the line that comes next. -/
  place : Nat
  /-- The registers. -/
  registers : Register → UInt64
  /-- The memory. -/
  memory : Memory
  /-- Whether the last comparison found a smaller number, as long as it is known. -/
  less : Option Bool
  /-- The numbers that were printed but not yet written out. -/
  held : List Int
  /-- The numbers that were written out. -/
  written : List Int

/-- What lies outside a listing: the linker and the routines of the system. -/
structure Host where
  /-- The address of a symbol. -/
  address : String → UInt64
  /-- The registers after a routine was called. -/
  registersAfter : String → Machine → Register → UInt64
  /-- The memory after a routine was called. -/
  memoryAfter : String → Machine → Memory
  /-- A routine keeps the registers that belong to its caller. -/
  keeps_register : ∀ routine machine register, register ∈ [.rbx, .rbp, .r12, .rsp] →
    registersAfter routine machine register = machine.registers register
  /-- A routine keeps the memory from the stack pointer upwards. -/
  keeps_memory : ∀ routine machine address, machine.registers .rsp ≤ address →
    memoryAfter routine machine address = machine.memory address

namespace Machine

/-- Go on to the next line. -/
def next (machine : Machine) : Machine :=
  { machine with place := machine.place + 1 }

/-- Set a register. -/
def set (machine : Machine) (register : Register) (value : UInt64) : Machine :=
  { machine with registers := Function.update machine.registers register value }

/-- Set a register to the result of a calculation, which overwrites the last comparison. -/
def calculate (machine : Machine) (register : Register) (value : UInt64) : Machine :=
  { machine.set register value with less := none }

/-- The word on top of the stack. -/
def top (machine : Machine) : UInt64 :=
  machine.memory.load (machine.registers .rsp)

/-- Put a word on the stack, which grows downwards. -/
def push (machine : Machine) (value : UInt64) : Machine :=
  { machine.set .rsp (machine.registers .rsp - 8) with
    memory := machine.memory.store (machine.registers .rsp - 8) value }

/-- Take the word on top of the stack into a register. -/
def pop (machine : Machine) (register : Register) : Machine :=
  (machine.set .rsp (machine.registers .rsp + 8)).set register machine.top

/-- Setting a register changes that register only. -/
@[simp]
theorem registers_set (machine : Machine) (register other : Register) (value : UInt64) :
    (machine.set register value).registers other =
      if other = register then value else machine.registers other :=
  Function.update_apply machine.registers register value other

/-- A calculation changes its register only. -/
@[simp]
theorem registers_calculate (machine : Machine) (register other : Register) (value : UInt64) :
    (machine.calculate register value).registers other =
      if other = register then value else machine.registers other :=
  Function.update_apply machine.registers register value other

/-- A push moves the stack pointer and no other register. -/
@[simp]
theorem registers_push (machine : Machine) (value : UInt64) (other : Register) :
    (machine.push value).registers other =
      if other = .rsp then machine.registers .rsp - 8 else machine.registers other :=
  Function.update_apply machine.registers .rsp (machine.registers .rsp - 8) other

/-- A pop sets its register and moves the stack pointer. -/
@[simp]
theorem registers_pop (machine : Machine) (register other : Register) :
    (machine.pop register).registers other =
      if other = register then machine.top
      else if other = .rsp then machine.registers .rsp + 8 else machine.registers other := by
  simp [pop]

/-- Going on to the next line changes nothing else. -/
@[simp]
theorem registers_next (machine : Machine) : machine.next.registers = machine.registers := rfl

/-- Go to the line where a symbol stands. -/
def goTo (machine : Machine) (listing : Listing) (symbol : String) : Option Machine :=
  (listing.place? symbol).map fun place => { machine with place }

/-- The machine after a routine has returned. -/
def returned (machine : Machine) (host : Host) (routine : String) : Machine :=
  { machine with
    place := machine.place + 1
    registers := host.registersAfter routine machine
    memory := host.memoryAfter routine machine
    less := none }

/-- Call a routine on an aligned stack. `printf` prints the number in `%rsi` if it is handed
the format of a decimal number on a line of its own and no vector registers; `fflush` writes
out everything that is held back if it is handed no particular stream. -/
def call (machine : Machine) (host : Host) (listing : Listing) (routine : String) :
    Option Machine :=
  if machine.registers .rsp % 16 ≠ 0 then none
  else if routine = "printf" then
    if (machine.registers .rax).toUInt8 = 0 ∧
        listing.stringAt? host.address (machine.registers .rdi) = some ['%', 'l', 'd', '\n'] then
      some { machine.returned host routine with
        held := machine.held ++ [(machine.registers .rsi).toInt64.toInt] }
    else none
  else if routine = "fflush" then
    if machine.registers .rdi = 0 then
      some { machine.returned host routine with
        held := []
        written := machine.written ++ machine.held }
    else none
  else none

/-- Execute an instruction. -/
def execute (machine : Machine) (host : Host) (listing : Listing) :
    Mnemonic → List Operand → Option Machine
  | .push, [.immediate value] => some (machine.push (extended value)).next
  | .push, [.register source] => some (machine.push (machine.registers source)).next
  | .pop, [.register target] => some (machine.pop target).next
  | .mov, [.immediate value, .register target] => some (machine.set target (extended value)).next
  | .mov, [.register source, .register target] =>
    some (machine.set target (machine.registers source)).next
  | .mov, [.memory pointer, .register target] =>
    some (machine.set target (machine.memory.load (machine.registers pointer))).next
  | .movabs, [.immediate value, .register target] => some (machine.set target (wide value)).next
  | .lea, [.relative symbol, .register target] =>
    some (machine.set target (host.address symbol)).next
  | .add, [.register source, .register target] =>
    some (machine.calculate target (machine.registers target + machine.registers source)).next
  | .add, [.immediate value, .register target] =>
    some (machine.calculate target (machine.registers target + extended value)).next
  | .sub, [.immediate value, .register target] =>
    some (machine.calculate target (machine.registers target - extended value)).next
  | .imul, [.register source, .register target] =>
    some (machine.calculate target (machine.registers target * machine.registers source)).next
  | .and, [.immediate value, .register target] =>
    some (machine.calculate target (machine.registers target &&& extended value)).next
  | .xor, [.register source, .register target] =>
    some (machine.calculate target (machine.registers target ^^^ machine.registers source)).next
  | .xor, [.lowRegister source, .lowRegister target] =>
    -- A result of 32 bits clears the upper half of its register.
    some (machine.calculate target
      ((machine.registers target ^^^ machine.registers source) &&& 0xffffffff)).next
  | .cmp, [.register source, .register target] =>
    some { machine with
      less := some ((machine.registers target).toInt64 < (machine.registers source).toInt64) }.next
  | .jmp, [.symbol symbol] => machine.goTo listing symbol
  | .jl, [.symbol symbol] =>
    match machine.less with
    | some true => machine.goTo listing symbol
    | some false => some machine.next
    | none => none
  | .call, [.symbol routine] => machine.call host listing routine
  | _, _ => none

/-- Follow a statement. -/
def follow (machine : Machine) (host : Host) (listing : Listing) : Statement → Option Machine
  | .blank | .global _ | .label _ => some machine.next
  | .instruction mnemonic operands => machine.execute host listing mnemonic operands
  | .segment _ | .string _ => none

/-- The state after the line that comes next. -/
def step (host : Host) (listing : Listing) (machine : Machine) : Option Machine :=
  listing.statements[machine.place]?.bind (machine.follow host listing)

/-- One state leads to another in any number of steps. -/
def Reaches (host : Host) (listing : Listing) : Machine → Machine → Prop :=
  Relation.ReflTransGen fun before later => step host listing before = some later

/-- The machine asks the operating system to end the process with a status. -/
def Exits (listing : Listing) (machine : Machine) (status : UInt64) : Prop :=
  listing.statements[machine.place]? = some (.instruction .syscall []) ∧
    machine.registers .rax = 60 ∧ machine.registers .rdi = status

end Machine

end ForthAsm
