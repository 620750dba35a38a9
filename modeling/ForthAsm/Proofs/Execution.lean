import ForthAsm.Proofs.Reading
import ForthAsm.Proofs.Stack

/-!
# Executing parts of a listing

Statements without jumps are followed one after the other, whatever stands around them, and no
other statement is followed on the way (`Machine.traverses_of_followAll`). The code that prints a
number moves the stack pointer to an aligned address and back, so it works at any depth of the
stack and keeps everything from the stack pointer upwards (`Machine.reaches_printNumber`).
-/

namespace ForthAsm

/-- Statements stand in a listing from a line on. -/
def Listing.Has (listing : Listing) (place : Nat) (statements : List Statement) : Prop :=
  ∃ before after, listing.statements = before ++ statements ++ after ∧ before.length = place

namespace Listing.Has

variable {listing : Listing} {place : Nat} {statement : Statement}
  {statements first second : List Statement}

/-- The first statement stands at the line itself. -/
theorem head (has : listing.Has place (statement :: statements)) :
    listing.statements[place]? = some statement := by
  obtain ⟨before, after, whole, rfl⟩ := has
  simp [whole]

/-- The first of two groups of statements stands from the same line on. -/
theorem left (has : listing.Has place (first ++ second)) : listing.Has place first := by
  obtain ⟨before, after, whole, counted⟩ := has
  exact ⟨before, second ++ after, by simp [whole], counted⟩

/-- The second of two groups of statements stands behind the first one. -/
theorem right (has : listing.Has place (first ++ second)) :
    listing.Has (place + first.length) second := by
  obtain ⟨before, after, whole, rfl⟩ := has
  exact ⟨before ++ first, after, by simp [whole], by simp⟩

/-- The other statements stand from the next line on. -/
theorem tail (has : listing.Has place (statement :: statements)) :
    listing.Has (place + 1) statements := by
  have whole : listing.Has place ([statement] ++ statements) := has
  exact whole.right

/-- A symbol stands where it is defined. -/
theorem place? {symbol : String} (has : listing.Has place (.label symbol :: statements)) :
    listing.place? symbol = some place := by
  obtain ⟨before, after, whole, rfl⟩ := has
  have distinct := listing.distinct
  simp only [Statement.symbols, whole, List.append_assoc, List.filterMap_append,
    List.cons_append, List.filterMap_cons, Statement.defined?] at distinct
  have unknown : symbol ∉ before.filterMap Statement.defined? := by
    intro there
    exact (List.nodup_append.mp distinct).2.2 symbol there symbol List.mem_cons_self rfl
  have absent : before.findIdx? (· == .label symbol) = none := by
    rw [List.findIdx?_eq_none_iff]
    intro statement there
    rw [beq_eq_false_iff_ne]
    rintro rfl
    exact unknown (List.mem_filterMap.mpr ⟨_, there, rfl⟩)
  simp [Listing.place?, whole, List.findIdx?_append, absent, List.findIdx?_cons]

end Listing.Has

/-- The symbol of the format leads to the format of a number on a line of its own. -/
def Listing.HasFormat (listing : Listing) (host : Host) : Prop :=
  listing.stringAt? host.address (host.address "fmt") = some ['%', 'l', 'd', '\n']

/-- Whether a statement, if it is followed, leads to the next line. -/
def Statement.isStraight : Statement → Bool
  | .instruction .jmp _ => false
  | .instruction .jl _ => false
  | _ => true

namespace Machine

variable {host : Host} {listing : Listing} {machine later : Machine} {first last : Nat}

/-- Follow statements one after the other. -/
def followAll (host : Host) (listing : Listing) : List Statement → Machine → Option Machine
  | [], machine => some machine
  | statement :: statements, machine =>
    (machine.follow host listing statement).bind (followAll host listing statements)

/-- A call that returns leads to the next line. -/
theorem place_of_call {routine : String} (called : machine.call host listing routine = some later) :
    later.place = machine.place + 1 := by
  unfold call at called
  split at called
  · contradiction
  · split at called
    · split at called
      · rw [← Option.some.inj called]
        rfl
      · contradiction
    · split at called
      · split at called
        · rw [← Option.some.inj called]
          rfl
        · contradiction
      · contradiction

/-- A statement without a jump leads to the next line. -/
theorem place_of_follow {statement : Statement} (straight : statement.isStraight = true)
    (followed : machine.follow host listing statement = some later) :
    later.place = machine.place + 1 := by
  cases statement with
  | blank | global | label =>
    rw [← Option.some.inj followed]
    rfl
  | segment | string => contradiction
  | instruction mnemonic operands =>
    rw [follow] at followed
    unfold execute at followed
    split at followed
    all_goals first
      | contradiction
      | exact place_of_call followed
      | exact congrArg place (Option.some.inj followed).symm

/-- The machine goes from one state to another and follows only lines between two places on its
way. -/
def Traverses (host : Host) (listing : Listing) (first last : Nat) : Machine → Machine → Prop :=
  Relation.ReflTransGen fun before later =>
    (first ≤ before.place ∧ before.place < last) ∧ step host listing before = some later

/-- What is traversed is reached. -/
theorem Traverses.reaches (traverses : Traverses host listing first last machine later) :
    Reaches host listing machine later := by
  induction traverses with
  | refl => exact Relation.ReflTransGen.refl
  | tail _ stepped ih => exact ih.tail stepped.2

/-- Statements without jumps that stand where the machine stands are traversed. -/
theorem traverses_of_followAll {statements : List Statement}
    (has : listing.Has machine.place statements)
    (straight : statements.all Statement.isStraight = true)
    (followed : followAll host listing statements machine = some later)
    (inside : first ≤ machine.place ∧ machine.place + statements.length ≤ last) :
    Traverses host listing first last machine later ∧
      later.place = machine.place + statements.length := by
  induction statements generalizing machine with
  | nil =>
    rw [← Option.some.inj followed]
    exact ⟨Relation.ReflTransGen.refl, rfl⟩
  | cons statement statements ih =>
    obtain ⟨between, begun, others⟩ := Option.bind_eq_some_iff.mp followed
    rw [List.all_cons, Bool.and_eq_true] at straight
    rw [List.length_cons] at inside ⊢
    have place := place_of_follow straight.1 begun
    have stepped : step host listing machine = some between := by
      rw [step, has.head]
      exact begun
    have rest : listing.Has between.place statements := by
      rw [place]
      exact has.tail
    obtain ⟨traversed, placed⟩ := ih rest straight.2 others (by omega)
    refine ⟨Relation.ReflTransGen.head ⟨by omega, stepped⟩ traversed, ?_⟩
    omega

/-- Statements without jumps that stand where the machine stands are followed. -/
theorem reaches_of_followAll {statements : List Statement}
    (has : listing.Has machine.place statements)
    (straight : statements.all Statement.isStraight = true)
    (followed : followAll host listing statements machine = some later) :
    Reaches host listing machine later ∧ later.place = machine.place + statements.length := by
  obtain ⟨traversed, place⟩ :=
    traverses_of_followAll has straight followed ⟨Nat.le_refl _, Nat.le_refl _⟩
  exact ⟨traversed.reaches, place⟩

/-- The mask that aligns an address clears its last four bits. -/
theorem extended_neg_sixteen : extended (-16) = 0xfffffffffffffff0 := by
  decide

/-- An address with its last four bits cleared is aligned. -/
theorem and_mask_mod (address : UInt64) : (address &&& extended (-16)) % 16 = 0 := by
  have cleared : (0xfffffffffffffff0 : Nat) &&& 15 = 0 := by decide
  apply UInt64.toNat_inj.mp
  rw [extended_neg_sixteen, UInt64.toNat_mod, UInt64.toNat_and]
  change (address.toNat &&& 0xfffffffffffffff0) % 2 ^ 4 = 0
  rw [← Nat.and_two_pow_sub_one_eq_mod, Nat.and_assoc]
  change address.toNat &&& (0xfffffffffffffff0 &&& 15) = 0
  rw [cleared, Nat.and_zero]

/-- Clearing bits of an address does not lead upwards. -/
theorem and_mask_le (address mask : UInt64) : address &&& mask ≤ address := by
  rw [UInt64.le_iff_toNat_le, UInt64.toNat_and]
  exact Nat.and_le_left

/-- What printing a number leaves as it was, and what it adds. -/
structure Prints (machine : Machine) (value : UInt64) (later : Machine) : Prop where
  /-- The frame pointer is kept. -/
  frame : later.registers .rbp = machine.registers .rbp
  /-- The stack pointer is kept. -/
  pointer : later.registers .rsp = machine.registers .rsp
  /-- The memory from the stack pointer upwards is kept. -/
  above : ∀ place, machine.registers .rsp ≤ place → later.memory place = machine.memory place
  /-- The number is held back with those before it. -/
  held : later.held = machine.held ++ [value.toInt64.toInt]
  /-- Nothing is written out. -/
  written : later.written = machine.written

/-- The code that prints a number is followed to its end and prints the one in `%rsi`. -/
theorem followAll_printNumber (format : listing.HasFormat host) (machine : Machine) :
    ∃ later, followAll host listing (Block.printNumber.map Operation.statement) machine =
      some later ∧ machine.Prints (machine.registers .rsi) later := by
  let aligned := machine.registers .rsp &&& extended (-16)
  let ready := ((((machine.set .rdi (host.address "fmt")).next.calculate .rax
    (machine.registers .rax ^^^ machine.registers .rax)).next.set .r12
    (machine.registers .rsp)).next.calculate .rsp aligned).next
  let printed := { ready.returned host "printf" with
    held := machine.held ++ [(machine.registers .rsi).toInt64.toInt] }
  have pointer : ready.registers .rsp = aligned := by simp [ready]
  have count : (ready.registers .rax).toUInt8 = 0 := by simp [ready]
  have argument : ready.registers .rdi = host.address "fmt" := by simp [ready]
  have called : ready.call host listing "printf" = some printed := by
    rw [call, pointer, if_neg (not_not.mpr (and_mask_mod _)), if_pos rfl, argument,
      if_pos ⟨count, format⟩]
    rfl
  have followed : followAll host listing (Block.printNumber.map Operation.statement) machine =
      some (printed.set .rsp (printed.registers .r12)).next := by
    change (ready.call host listing "printf").bind _ = _
    rw [called]
    rfl
  have kept : ∀ register ∈ [.rbx, .rbp, .r12, .rsp],
      printed.registers register = ready.registers register :=
    fun register saved => host.keeps_register "printf" ready register saved
  refine ⟨_, followed, ?_, ?_, ?_, rfl, rfl⟩
  · simp [kept .rbp (by decide), ready]
  · simp [kept .r12 (by decide), ready]
  · intro place above
    have lower : ready.registers .rsp ≤ place := by
      rw [pointer]
      exact UInt64.le_trans (and_mask_le _ _) above
    exact host.keeps_memory "printf" ready place lower

/-- The code that prints a number prints the one in `%rsi`, at any depth of the stack. -/
theorem reaches_printNumber
    (has : listing.Has machine.place (Block.printNumber.map Operation.statement))
    (format : listing.HasFormat host) :
    ∃ later, Reaches host listing machine later ∧ later.place = machine.place + 6 ∧
      machine.Prints (machine.registers .rsi) later := by
  obtain ⟨later, followed, prints⟩ := followAll_printNumber format machine
  obtain ⟨reached, place⟩ := reaches_of_followAll has rfl followed
  exact ⟨later, reached, place, prints⟩

/-- Printing keeps the stack. -/
theorem Prints.holds {base value : UInt64} {stack : List UInt64}
    (prints : machine.Prints value later) (holds : machine.Holds base stack)
    (fits : 8 * stack.length ≤ base.toNat) : later.Holds base stack :=
  holds.of_above fits prints.frame prints.pointer prints.above

end Machine

end ForthAsm
