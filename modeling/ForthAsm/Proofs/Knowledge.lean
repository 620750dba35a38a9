import ForthAsm.Proofs.Execution

/-!
# What is known at a line

Some of what the registers hold can be read off the code without running it: the distance of
the stack pointer from where the stack began, the symbol whose address was loaded, a value that
was set. `Knowledge.past` says how one line changes what is known. A label can be reached from
elsewhere, so all that counts there is what is known about the two pointers of the stack.

Main statement: `Knowledge.Covers.after`, what is known before an operation becomes what is
known behind it.
-/

namespace ForthAsm

/-- The address a number of words below another one; a negative number leads upwards. -/
def below (base : UInt64) (words : Int) : UInt64 :=
  base - UInt64.ofInt (8 * words)

/-- No words below an address is the address. -/
@[simp]
theorem below_zero (base : UInt64) : below base 0 = base := by
  have none : UInt64.ofInt (8 * 0) = 0 := rfl
  rw [below, none, UInt64.sub_zero]

/-- One more word begins eight bytes further down. -/
theorem below_add_one (base : UInt64) (words : Int) :
    below base (words + 1) = below base words - 8 := by
  have sum : UInt64.ofInt (8 * (words + 1)) = UInt64.ofInt (8 * words) + 8 := by
    rw [Int.mul_add, UInt64.ofInt_add]
    rfl
  rw [below, sum, below]
  grind

/-- One word less ends eight bytes further up. -/
theorem below_sub_one (base : UInt64) (words : Int) :
    below base (words - 1) = below base words + 8 := by
  have same := below_add_one base (words - 1)
  rw [Int.sub_add_cancel] at same
  rw [same, UInt64.sub_add_cancel]

/-- What is known about the content of a register. -/
inductive Known where
  /-- Nothing. -/
  | nothing
  /-- It is a word. -/
  | value (word : UInt64)
  /-- It is the address of a symbol. -/
  | symbol (name : String)
  /-- It is a number of words below where the stack began. -/
  | depth (words : Int)
  /-- It is the aligned address at or below a number of words below where the stack began. -/
  | aligned (words : Int)
  deriving DecidableEq, Repr

namespace Known

/-- What is known after a word was subtracted. -/
def deeper : Known → Known
  | depth words => depth (words + 1)
  | _ => nothing

/-- What is known after a word was added. -/
def higher : Known → Known
  | depth words => depth (words - 1)
  | _ => nothing

/-- What is known after the last four bits were cleared. -/
def cleared : Known → Known
  | depth words => aligned words
  | _ => nothing

/-- What is known is true of a word, for a stack that began at an address. -/
def IsOf (host : Host) (base : UInt64) : Known → UInt64 → Prop
  | nothing, _ => True
  | value same, word => word = same
  | symbol name, word => word = host.address name
  | depth words, word => word = below base words
  | aligned words, word => word = below base words &&& extended (-16)

variable {host : Host} {base word : UInt64} {known : Known}

/-- Subtracting a word leads one word further down. -/
theorem IsOf.deeper (holds : known.IsOf host base word) :
    known.deeper.IsOf host base (word - 8) := by
  cases known with
  | depth words => exact (congrArg (· - 8) holds).trans (below_add_one base words).symm
  | _ => trivial

/-- Adding a word leads one word further up. -/
theorem IsOf.higher (holds : known.IsOf host base word) :
    known.higher.IsOf host base (word + 8) := by
  cases known with
  | depth words => exact (congrArg (· + 8) holds).trans (below_sub_one base words).symm
  | _ => trivial

/-- Clearing the last four bits aligns an address. -/
theorem IsOf.cleared (holds : known.IsOf host base word) :
    known.cleared.IsOf host base (word &&& extended (-16)) := by
  cases known with
  | depth words => exact congrArg (· &&& extended (-16)) holds
  | _ => trivial

end Known

/-- What is known before a line. -/
structure Knowledge where
  /-- What is known about each register. -/
  registers : Register → Known
  /-- Whether the result of a comparison is there. -/
  compared : Bool

namespace Knowledge

/-- Something becomes known about a register. -/
def set (knowledge : Knowledge) (register : Register) (known : Known) : Knowledge :=
  { knowledge with registers := Function.update knowledge.registers register known }

/-- Something becomes known about a register, and the last comparison is overwritten. -/
def calculate (knowledge : Knowledge) (register : Register) (known : Known) : Knowledge :=
  { knowledge.set register known with compared := false }

/-- What is known after a routine has returned. -/
def returned (knowledge : Knowledge) : Knowledge where
  registers := fun register =>
    if register ∈ [.rbx, .rbp, .r12, .rsp] then knowledge.registers register else .nothing
  compared := false

/-- What is known about the two pointers of the stack. -/
def pointers (knowledge : Knowledge) : Knowledge where
  registers := fun register =>
    if register ∈ [.rsp, .rbp] then knowledge.registers register else .nothing
  compared := false

/-- What is known behind an operation. -/
def after (knowledge : Knowledge) : Operation → Knowledge
  | .pushImmediate _ | .push _ => knowledge.set .rsp (knowledge.registers .rsp).deeper
  | .pop target => (knowledge.set .rsp (knowledge.registers .rsp).higher).set target .nothing
  | .moveWide value target => knowledge.set target (.value (wide value))
  | .moveImmediate value target => knowledge.set target (.value (extended value))
  | .move source target => knowledge.set target (knowledge.registers source)
  | .load _ target => knowledge.set target .nothing
  | .address label target => knowledge.set target (.symbol label.name)
  | .add _ target | .multiply _ target => knowledge.calculate target .nothing
  | .addImmediate value target => knowledge.calculate target
      (if value = 8 then (knowledge.registers target).higher else .nothing)
  | .subtractImmediate value target => knowledge.calculate target
      (if value = 8 then (knowledge.registers target).deeper else .nothing)
  | .andImmediate value target => knowledge.calculate target
      (if value = -16 then (knowledge.registers target).cleared else .nothing)
  | .exclusiveOr source target | .exclusiveOrLow source target => knowledge.calculate target
      (if source = target then .value 0 else .nothing)
  | .compare _ _ => { knowledge with compared := true }
  | .jump _ | .jumpLess _ | .systemCall => knowledge
  | .call _ => knowledge.returned

/-- What can be relied on at a line: a label may have been reached from elsewhere. -/
def atLine (knowledge : Knowledge) : Line → Knowledge
  | .label _ => knowledge.pointers
  | _ => knowledge

/-- What is known behind a line. -/
def past (knowledge : Knowledge) : Line → Knowledge
  | .operation _ content => knowledge.after content
  | .label _ => knowledge.pointers
  | _ => knowledge

/-- What is known behind some lines. -/
def through (knowledge : Knowledge) (lines : List Line) : Knowledge :=
  lines.foldl past knowledge

/-- What is known before the line at a place of some lines. -/
def before (knowledge : Knowledge) (lines : List Line) (index : Nat) : Knowledge :=
  knowledge.through (lines.take index)

/-- The stack has a depth, and the frame pointer is where it began. -/
structure Level (depth : Int) (knowledge : Knowledge) : Prop where
  /-- The stack pointer is a number of words below where the stack began. -/
  pointer : knowledge.registers .rsp = .depth depth
  /-- The frame pointer is where the stack began. -/
  frame : knowledge.registers .rbp = .depth 0

/-- What is known is true of a machine whose stack began at an address. -/
structure Covers (host : Host) (base : UInt64) (knowledge : Knowledge) (machine : Machine) :
    Prop where
  /-- What is known about each register is true. -/
  registers : ∀ register,
    (knowledge.registers register).IsOf host base (machine.registers register)
  /-- The result of a comparison is there if it is said to be. -/
  compared : knowledge.compared = true → machine.less.isSome = true

variable {host : Host} {listing : Listing} {base : UInt64} {knowledge other : Knowledge}
  {machine later : Machine} {depth : Int}

/-- Something becomes known about a register and nothing else changes. -/
@[simp]
theorem registers_set (knowledge : Knowledge) (register place : Register) (known : Known) :
    (knowledge.set register known).registers place =
      if place = register then known else knowledge.registers place :=
  Function.update_apply knowledge.registers register known place

/-- A calculation makes something known about its register only. -/
@[simp]
theorem registers_calculate (knowledge : Knowledge) (register place : Register)
    (known : Known) :
    (knowledge.calculate register known).registers place =
      if place = register then known else knowledge.registers place :=
  Function.update_apply knowledge.registers register known place

/-- Two levels of the same depth know the same about the two pointers. -/
theorem Level.pointers_eq (level : knowledge.Level depth) (same : other.Level depth) :
    knowledge.pointers = other.pointers := by
  rw [pointers, pointers]
  congr 1
  funext register
  cases register
  case rsp => simp [level.pointer, same.pointer]
  case rbp => simp [level.frame, same.frame]
  all_goals rfl

/-! ## What is known stays true -/

namespace Covers

/-- Knowledge is about registers and comparisons only. -/
theorem of_eq (covers : knowledge.Covers host base machine)
    (registers : later.registers = machine.registers) (less : later.less = machine.less) :
    knowledge.Covers host base later := by
  refine ⟨?_, ?_⟩
  · rw [registers]
    exact covers.registers
  · rw [less]
    exact covers.compared

/-- Less can be known. -/
theorem forget (covers : knowledge.Covers host base machine)
    (less : ∀ register, other.registers register = knowledge.registers register ∨
      other.registers register = .nothing)
    (unknown : other.compared = false) : other.Covers host base machine := by
  refine ⟨?_, by simp [unknown]⟩
  intro register
  rcases less register with same | nothing
  · rw [same]
    exact covers.registers register
  · rw [nothing]
    trivial

/-- What is known about the two pointers is true if all that is known is. -/
theorem pointers (covers : knowledge.Covers host base machine) :
    knowledge.pointers.Covers host base machine := by
  refine covers.forget ?_ rfl
  intro register
  by_cases kept : register ∈ [Register.rsp, .rbp]
  · exact .inl (if_pos kept)
  · exact .inr (if_neg kept)

/-- What can be relied on at a line is true if all that is known is. -/
theorem atLine (covers : knowledge.Covers host base machine) (line : Line) :
    (knowledge.atLine line).Covers host base machine := by
  cases line with
  | label place => exact covers.pointers
  | _ => exact covers

/-- A register that is set to a word has what is known about the word. -/
theorem set (covers : knowledge.Covers host base machine) {register : Register} {known : Known}
    {word : UInt64} (holds : known.IsOf host base word) :
    (knowledge.set register known).Covers host base (machine.set register word) := by
  refine ⟨?_, covers.compared⟩
  intro place
  rw [registers_set, Machine.registers_set]
  split
  · exact holds
  · exact covers.registers place

/-- A register that is calculated has what is known about the result. -/
theorem calculate (covers : knowledge.Covers host base machine) {register : Register}
    {known : Known} {word : UInt64} (holds : known.IsOf host base word) :
    (knowledge.calculate register known).Covers host base (machine.calculate register word) :=
  ⟨(covers.set holds).registers, by simp [Knowledge.calculate]⟩

/-- A push leads one word further down. -/
theorem push (covers : knowledge.Covers host base machine) (word : UInt64) :
    (knowledge.set .rsp (knowledge.registers .rsp).deeper).Covers host base
      (machine.push word) :=
  (covers.set (covers.registers .rsp).deeper).of_eq rfl rfl

/-- A pop leads one word further up. -/
theorem pop (covers : knowledge.Covers host base machine) (register : Register) :
    ((knowledge.set .rsp (knowledge.registers .rsp).higher).set register .nothing).Covers
      host base (machine.pop register) :=
  (covers.set (covers.registers .rsp).higher).set trivial

/-- A routine that returns keeps what belongs to its caller. -/
theorem returned (covers : knowledge.Covers host base machine) {routine : String}
    (called : machine.call host listing routine = some later) :
    knowledge.returned.Covers host base later := by
  have registers : later.registers = host.registersAfter routine machine := by
    unfold Machine.call at called
    repeat' split at called
    all_goals first
      | contradiction
      | rw [← Option.some.inj called]
        rfl
  refine ⟨?_, by simp [Knowledge.returned]⟩
  intro register
  rw [Knowledge.returned]
  simp only
  split
  · rename_i kept
    rw [registers, host.keeps_register routine machine register kept]
    exact covers.registers register
  · trivial

/-- A jump changes nothing but the place. -/
theorem goTo (covers : knowledge.Covers host base machine) {symbol : String}
    (jumped : machine.goTo listing symbol = some later) :
    knowledge.Covers host base later := by
  obtain ⟨place, -, rfl⟩ := Option.map_eq_some_iff.mp jumped
  exact covers.of_eq rfl rfl

/-- Going on to the next line changes nothing but the place. -/
theorem next (covers : knowledge.Covers host base machine)
    (moved : some machine.next = some later) : knowledge.Covers host base later := by
  rw [← Option.some.inj moved]
  exact covers.of_eq rfl rfl

/-- What is known before an operation becomes what is known behind it. -/
theorem after (covers : knowledge.Covers host base machine) {operation : Operation}
    (followed : machine.follow host listing operation.statement = some later) :
    (knowledge.after operation).Covers host base later := by
  have eight : extended 8 = 8 := by decide
  have unknown : ∀ word, Known.nothing.IsOf host base word := fun _ => trivial
  cases operation with
  | pushImmediate value => exact (covers.push (extended value)).next followed
  | push source => exact (covers.push (machine.registers source)).next followed
  | pop target => exact (covers.pop target).next followed
  | moveWide value target =>
    have set : (Known.value (wide value)).IsOf host base (wide value) := rfl
    exact (covers.set set).next followed
  | moveImmediate value target =>
    have set : (Known.value (extended value)).IsOf host base (extended value) := rfl
    exact (covers.set set).next followed
  | move source target => exact (covers.set (covers.registers source)).next followed
  | load pointer target => exact (covers.set (unknown _)).next followed
  | address label target =>
    have set : (Known.symbol label.name).IsOf host base (host.address label.name) := rfl
    exact (covers.set set).next followed
  | add source target => exact (covers.calculate (unknown _)).next followed
  | multiply source target => exact (covers.calculate (unknown _)).next followed
  | addImmediate value target =>
    refine (covers.calculate ?_).next followed
    split
    · rename_i word
      rw [word, eight]
      exact (covers.registers target).higher
    · trivial
  | subtractImmediate value target =>
    refine (covers.calculate ?_).next followed
    split
    · rename_i word
      rw [word, eight]
      exact (covers.registers target).deeper
    · trivial
  | andImmediate value target =>
    refine (covers.calculate ?_).next followed
    split
    · rename_i mask
      rw [mask]
      exact (covers.registers target).cleared
    · trivial
  | exclusiveOr source target =>
    refine (covers.calculate ?_).next followed
    split
    · rename_i same
      rw [same]
      exact UInt64.xor_self
    · trivial
  | exclusiveOrLow source target =>
    refine (covers.calculate ?_).next followed
    split
    · rename_i same
      rw [same, UInt64.xor_self]
      exact UInt64.zero_and
    · trivial
  | compare source target =>
    rw [← Option.some.inj followed]
    exact ⟨covers.registers, fun _ => rfl⟩
  | jump label => exact covers.goTo followed
  | jumpLess label =>
    simp only [Operation.statement, Machine.follow, Machine.execute] at followed
    split at followed
    · exact covers.goTo followed
    · exact covers.next followed
    · contradiction
  | call routine => exact covers.returned followed
  | systemCall => contradiction

end Covers

/-! ## Knowledge along some lines -/

/-- What is known behind two groups of lines is found one after the other. -/
theorem through_append (knowledge : Knowledge) (first second : List Line) :
    knowledge.through (first ++ second) = (knowledge.through first).through second :=
  List.foldl_append

/-- What is known behind the line at a place. -/
theorem before_succ {code : List Line} {index : Nat} {line : Line}
    (found : code[index]? = some line) (knowledge : Knowledge) :
    knowledge.before code (index + 1) = (knowledge.before code index).past line := by
  rw [before, List.take_add_one, found, through_append]
  rfl

/-- Lines behind some code do not count in it. -/
theorem before_append_left {first : List Line} {index : Nat} (inside : index ≤ first.length)
    (knowledge : Knowledge) (second : List Line) :
    knowledge.before (first ++ second) index = knowledge.before first index := by
  rw [before, List.take_append_of_le_length inside, before]

/-- Behind some lines all that counts is what is known there. -/
theorem before_append_right (knowledge : Knowledge) (first second : List Line) (index : Nat) :
    knowledge.before (first ++ second) (first.length + index) =
      (knowledge.through first).before second index := by
  rw [before, List.take_length_add_append, through_append, before]

end Knowledge

end ForthAsm
