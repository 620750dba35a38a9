import ForthAsm.Proofs.Execution

/-!
# Working on top of the stack

The straight code of a block works with some words on top of the stack and with a few registers;
what lies deeper is none of its business. A `Desk` is that much of a machine, and it can be
worked on without any memory: words are taken from it, put on it and calculated with. A machine
serves a desk if it has the words on top of its stack, everything deeper is as it was when the
work began, and the frame pointer is untouched.

Main statement: `Machine.Serves.followAll`, whatever is done on the desk the machine does as
well.
-/

namespace ForthAsm

/-- What some code works with: words on top of the stack, the top first, and registers. -/
structure Desk where
  /-- The words. -/
  words : List UInt64
  /-- The registers; the two pointers of the stack are not used. -/
  registers : Register → UInt64

/-- Whether a register is none of the two pointers of the stack. -/
def Register.IsFree (register : Register) : Prop :=
  register ≠ .rbp ∧ register ≠ .rsp

/-- Whether a register is free can be decided. -/
instance (register : Register) : Decidable register.IsFree :=
  inferInstanceAs (Decidable (_ ∧ _))

namespace Desk

/-- Read a register. -/
def read (desk : Desk) (register : Register) : Option UInt64 :=
  if register.IsFree then some (desk.registers register) else none

/-- Set a register. -/
def set (desk : Desk) (register : Register) (value : UInt64) : Option Desk :=
  if register.IsFree then
    some { desk with registers := Function.update desk.registers register value }
  else none

/-- Put a word on the desk, which has room for a number of them. -/
def put (limit : Nat) (desk : Desk) (value : UInt64) : Option Desk :=
  if desk.words.length < limit then some { desk with words := value :: desk.words } else none

/-- Take the top away. -/
def drop (desk : Desk) : Option Desk :=
  match desk.words with
  | [] => none
  | _ :: rest => some { desk with words := rest }

/-- Follow an operation on the desk, if it stays on it. -/
def follow (limit : Nat) (desk : Desk) : Operation → Option Desk
  | .pushImmediate value => desk.put limit (extended value)
  | .push source => (desk.read source).bind (desk.put limit)
  | .pop target =>
    desk.words.head?.bind fun top => desk.drop.bind fun rest => rest.set target top
  | .moveWide value target => desk.set target (wide value)
  | .add source target =>
    (desk.read source).bind fun value => desk.set target (desk.registers target + value)
  | .multiply source target =>
    (desk.read source).bind fun value => desk.set target (desk.registers target * value)
  | .addImmediate value target => if value = 8 ∧ target = .rsp then desk.drop else none
  | .subtractImmediate value target => desk.set target (desk.registers target - extended value)
  | _ => none

/-- Follow operations on the desk one after the other. -/
def followAll (limit : Nat) (desk : Desk) (operations : List Operation) : Option Desk :=
  operations.foldlM (follow limit) desk

/-- Operations that are followed on a desk lead from line to line. -/
theorem isStraight_of_followAll {limit : Nat} {desk after : Desk} {operations : List Operation}
    (done : desk.followAll limit operations = some after) :
    (operations.map Operation.statement).all Statement.isStraight = true := by
  induction operations generalizing desk with
  | nil => rfl
  | cons operation operations ih =>
    rw [followAll, List.foldlM_cons] at done
    obtain ⟨between, first, others⟩ := Option.bind_eq_some_iff.mp done
    have straight : operation.statement.isStraight = true := by
      cases operation with
      | jump | jumpLess => contradiction
      | _ => rfl
    rw [List.map_cons, List.all_cons, straight, ih others]
    rfl

end Desk

namespace Machine

/-- The words on top of the stack, the top first. -/
def topWords (machine : Machine) (count : Nat) : List UInt64 :=
  (List.range count).map fun index =>
    machine.memory.load (machine.registers .rsp + UInt64.ofNat (8 * index))

/-- The address of a word of a stack, counted from the top. -/
theorem slot_add_words (pointer : UInt64) {count index : Nat} (inside : index < count) :
    slot (pointer + UInt64.ofNat (8 * count)) index =
      pointer + UInt64.ofNat (8 * (count - 1 - index)) := by
  have parts : 8 * count = 8 * (count - 1 - index) + 8 * (index + 1) := by omega
  rw [slot, parts, UInt64.ofNat_add, ← UInt64.add_assoc, UInt64.add_sub_cancel]

/-- A machine does the work of a desk whose words lie below an address. -/
structure Serves (machine start : Machine) (floor : UInt64) (desk : Desk) : Prop where
  /-- The frame pointer is untouched. -/
  frame : machine.registers .rbp = start.registers .rbp
  /-- The words lie below the address, whatever the frame pointer is. -/
  words : (machine.set .rbp floor).Holds floor desk.words
  /-- From the address upwards everything is as it was. -/
  deeper : ∀ address, floor ≤ address → machine.memory address = start.memory address
  /-- The registers. -/
  registers : ∀ register, register.IsFree → machine.registers register = desk.registers register

namespace Serves

variable {host : Host} {listing : Listing} {start machine later : Machine} {floor value : UInt64}
  {desk after : Desk} {limit : Nat} {operation : Operation} {operations : List Operation}

/-- A desk is about registers and memory only. -/
theorem of_eq (serves : machine.Serves start floor desk)
    (registers : later.registers = machine.registers) (memory : later.memory = machine.memory) :
    later.Serves start floor desk := by
  refine ⟨?_, serves.words.of_eq ?_ ?_ memory, ?_, ?_⟩
  · rw [registers]
    exact serves.frame
  · simp
  · simp [registers]
  · rw [memory]
    exact serves.deeper
  · rw [registers]
    exact serves.registers

/-- The registers of the desk can be taken from the machine. -/
theorem refresh (serves : machine.Serves start floor desk) :
    machine.Serves start floor ⟨desk.words, machine.registers⟩ :=
  ⟨serves.frame, serves.words, serves.deeper, fun _ _ => rfl⟩

/-- The word at the stack pointer is the top. -/
theorem top (serves : machine.Serves start floor desk) (there : desk.words.head? = some value) :
    machine.top = value := by
  have holds := serves.words
  rw [List.head?_eq_some_iff] at there
  obtain ⟨rest, shape⟩ := there
  rw [shape] at holds
  exact holds.top

/-- A register that can be read holds the same on the machine. -/
theorem read (serves : machine.Serves start floor desk) {register : Register}
    (done : desk.read register = some value) : machine.registers register = value := by
  obtain ⟨free, read⟩ := Option.ite_none_right_eq_some.mp done
  rw [serves.registers register free]
  exact Option.some.inj read

/-- A register that is set on the desk is set on the machine. -/
theorem set (serves : machine.Serves start floor desk) {register : Register}
    (done : desk.set register value = some after) :
    (machine.set register value).Serves start floor after := by
  obtain ⟨free, set⟩ := Option.ite_none_right_eq_some.mp done
  obtain rfl := Option.some.inj set
  refine ⟨?_, serves.words.of_eq ?_ ?_ rfl, serves.deeper, ?_⟩
  · simpa [Ne.symm free.1] using serves.frame
  · simp
  · simp [Ne.symm free.2]
  · intro other unused
    simp only [registers_set, Function.update_apply, serves.registers other unused]

/-- A word that is put on the desk is pushed by the machine. -/
theorem put (serves : machine.Serves start floor desk) (room : 8 * limit ≤ floor.toNat)
    (done : desk.put limit value = some after) :
    (machine.push value).Serves start floor after := by
  obtain ⟨space, put⟩ := Option.ite_none_right_eq_some.mp done
  obtain rfl := Option.some.inj put
  have holds := serves.words.push (by omega) value
  refine ⟨?_, holds.of_eq ?_ ?_ rfl, ?_, ?_⟩
  · simpa using serves.frame
  · simp
  · simp
  · -- The new word lies below all the others, and those below the address.
    intro address high
    have place : machine.registers .rsp - 8 = slot floor desk.words.length :=
      serves.words.pointer_sub
    have number : (slot floor desk.words.length).toNat =
        floor.toNat - 8 * (desk.words.length + 1) := toNat_slot (by omega)
    have far : ¬(address - slot floor desk.words.length).toNat < 8 := by
      rw [UInt64.le_iff_toNat_le] at high
      have bounds := And.intro address.toNat_lt floor.toNat_lt
      rw [UInt64.toNat_sub]
      omega
    rw [← serves.deeper address high]
    change machine.memory.store (machine.registers .rsp - 8) value address = _
    rw [place, Memory.store, if_neg far]
  · intro register free
    rw [registers_push, if_neg free.2]
    exact serves.registers register free

/-- Where the top is taken away the stack pointer is moved up. -/
theorem drop (serves : machine.Serves start floor desk) (done : desk.drop = some after) :
    (machine.set .rsp (machine.registers .rsp + 8)).Serves start floor after := by
  unfold Desk.drop at done
  split at done
  · contradiction
  · rename_i top rest shape
    obtain rfl := Option.some.inj done
    have holds := serves.words
    rw [shape] at holds
    refine ⟨?_, holds.drop.of_eq ?_ ?_ rfl, serves.deeper, ?_⟩
    · simpa using serves.frame
    · simp
    · simp
    · intro register free
      rw [registers_set, if_neg free.2]
      exact serves.registers register free

/-- An operation that is followed on the desk is followed by the machine. -/
theorem follow (serves : machine.Serves start floor desk) (room : 8 * limit ≤ floor.toNat)
    (done : desk.follow limit operation = some after) :
    ∃ later, machine.follow host listing operation.statement = some later ∧
      later.Serves start floor after := by
  cases operation with
  | pushImmediate value => exact ⟨_, rfl, (serves.put room done).of_eq rfl rfl⟩
  | push source =>
    obtain ⟨value, read, put⟩ := Option.bind_eq_some_iff.mp done
    rw [← serves.read read] at put
    exact ⟨_, rfl, (serves.put room put).of_eq rfl rfl⟩
  | pop target =>
    obtain ⟨top, there, done⟩ := Option.bind_eq_some_iff.mp done
    obtain ⟨rest, dropped, set⟩ := Option.bind_eq_some_iff.mp done
    rw [← serves.top there] at set
    exact ⟨_, rfl, ((serves.drop dropped).set set).of_eq rfl rfl⟩
  | moveWide value target => exact ⟨_, rfl, (serves.set done).of_eq rfl rfl⟩
  | add source target =>
    obtain ⟨value, read, set⟩ := Option.bind_eq_some_iff.mp done
    have free := (Option.ite_none_right_eq_some.mp set).1
    rw [← serves.read read, ← serves.registers target free] at set
    exact ⟨_, rfl, (serves.set set).of_eq rfl rfl⟩
  | multiply source target =>
    obtain ⟨value, read, set⟩ := Option.bind_eq_some_iff.mp done
    have free := (Option.ite_none_right_eq_some.mp set).1
    rw [← serves.read read, ← serves.registers target free] at set
    exact ⟨_, rfl, (serves.set set).of_eq rfl rfl⟩
  | addImmediate value target =>
    obtain ⟨⟨rfl, rfl⟩, dropped⟩ := Option.ite_none_right_eq_some.mp done
    have eight : extended 8 = 8 := by decide
    refine ⟨_, rfl, (serves.drop dropped).of_eq ?_ rfl⟩
    rw [eight]
    rfl
  | subtractImmediate value target =>
    have set : desk.set target (desk.registers target - extended value) = some after := done
    have free := (Option.ite_none_right_eq_some.mp set).1
    rw [← serves.registers target free] at set
    exact ⟨_, rfl, (serves.set set).of_eq rfl rfl⟩
  | _ => contradiction

/-- Whatever is done on the desk the machine does as well. -/
theorem followAll (serves : machine.Serves start floor desk) (room : 8 * limit ≤ floor.toNat)
    (done : desk.followAll limit operations = some after) :
    ∃ later, Machine.followAll host listing (operations.map Operation.statement) machine =
      some later ∧ later.Serves start floor after := by
  induction operations generalizing machine desk with
  | nil =>
    obtain rfl := Option.some.inj done
    exact ⟨machine, rfl, serves⟩
  | cons operation operations ih =>
    rw [Desk.followAll, List.foldlM_cons] at done
    obtain ⟨between, first, others⟩ := Option.bind_eq_some_iff.mp done
    obtain ⟨next, followed, serving⟩ := serves.follow room first
    obtain ⟨later, rest, served⟩ := ih serving others
    refine ⟨later, ?_, served⟩
    rw [List.map_cons, Machine.followAll, followed]
    exact rest

/-- The words of the desk are those on top of the stack. -/
theorem topWords_eq (serves : machine.Serves start floor desk) :
    machine.topWords desk.words.length = desk.words := by
  have pointer : machine.registers .rsp = floor - UInt64.ofNat (8 * desk.words.length) :=
    serves.words.pointer
  have whole : floor = machine.registers .rsp + UInt64.ofNat (8 * desk.words.length) := by
    rw [pointer, UInt64.sub_add_cancel]
  refine List.ext_getElem (by simp [topWords]) ?_
  intro index _ inside
  -- The words of a stack are counted from the oldest one.
  have oldest : desk.words.length - 1 - (desk.words.length - 1 - index) = index := by omega
  have found : desk.words.reverse[desk.words.length - 1 - index]? = some desk.words[index] := by
    rw [List.getElem?_reverse (by omega), oldest, List.getElem?_eq_getElem inside]
  have word : machine.memory.load (slot floor (desk.words.length - 1 - index)) =
      desk.words[index] := serves.words.slots _ _ found
  rw [whole, slot_add_words _ (by omega), oldest] at word
  simp only [topWords, List.getElem_map, List.getElem_range]
  exact word

end Serves

/-- Every machine serves a desk with the words on top of its stack. -/
theorem serves_topWords (machine : Machine) (count : Nat) :
    machine.Serves machine (machine.registers .rsp + UInt64.ofNat (8 * count))
      ⟨machine.topWords count, machine.registers⟩ := by
  refine ⟨rfl, ⟨by simp, ?_, ?_⟩, fun _ _ => rfl, fun _ _ => rfl⟩
  · simp [topWords]
  · intro index value found
    have inside : index < count := by
      simpa [topWords] using (List.getElem?_eq_some_iff.mp found).1
    have last : count - 1 - index < count := by omega
    rw [List.getElem?_reverse (by simpa [topWords] using inside)] at found
    simp only [topWords, List.length_map, List.length_range, List.getElem?_map,
      List.getElem?_range last, Option.map_some, Option.some.injEq] at found
    rw [slot_add_words _ inside]
    exact found

end Machine

end ForthAsm
