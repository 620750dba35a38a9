import ForthAsm.Proofs.CallRules
import ForthAsm.Proofs.Desk

/-!
# Declared effects and code

Every instruction declares how many words it takes from the stack and how many it leaves
instead. The code of an instruction keeps to that on every machine: it moves the stack pointer
by as many words, it leaves everything deeper than the words it takes as it was, and what it
leaves on top is made from the words it takes. So between two blocks of a program the distance
between the frame pointer and the stack pointer is known from the declared effects alone, also
where it is negative.

Main statements: `Machine.performs_block`, one block, and `Program.code_has_declared_effects`.
-/

namespace ForthAsm

namespace Instruction

/-- The words that an instruction needs below those that it leaves: the walk over the stack
keeps its pointer there. -/
def spare : Instruction → Nat
  | dump _ => 1
  | _ => 0

/-- For a stack pointer the addresses that an instruction touches do not look negative. -/
structure HasSpace (instruction : Instruction) (pointer : Int) : Prop where
  /-- Enough words are free below. -/
  low : 8 * ((instruction.effect.pushes.toNat : Int) + instruction.spare) ≤
    pointer + 8 * instruction.effect.pops.toNat
  /-- The words that are taken lie below the first address that looks negative, and the stack
  pointer that a walk is compared with does not look negative either. -/
  high : pointer + 8 * instruction.effect.pops.toNat + instruction.spare ≤ 9223372036854775808

/-- Whether an instruction has space can be calculated. -/
instance (instruction : Instruction) (pointer : Int) : Decidable (instruction.HasSpace pointer) :=
  decidable_of_iff (_ ∧ _) ⟨fun both => ⟨both.1, both.2⟩, fun space => ⟨space.low, space.high⟩⟩

/-- From a stack pointer on, every instruction has space. -/
def HaveSpace (pointer : Int) : List Instruction → Prop
  | [] => True
  | instruction :: instructions =>
    instruction.HasSpace pointer ∧
      HaveSpace (pointer - 8 * instruction.effect.delta) instructions

/-- Whether instructions have space can be decided by going through them. -/
instance decidableHaveSpace (pointer : Int) :
    (instructions : List Instruction) → Decidable (HaveSpace pointer instructions)
  | [] => inferInstanceAs (Decidable True)
  | instruction :: instructions =>
    have := decidableHaveSpace (pointer - 8 * instruction.effect.delta) instructions
    inferInstanceAs (Decidable (_ ∧ _))

/-- Instructions that have space lead from an address to an address. -/
theorem HaveSpace.bounds {pointer : Int} {instructions : List Instruction}
    (space : HaveSpace pointer instructions)
    (begins : 0 ≤ pointer ∧ pointer < 18446744073709551616) :
    0 ≤ pointer - 8 * totalDelta instructions ∧
      pointer - 8 * totalDelta instructions < 18446744073709551616 := by
  induction instructions generalizing pointer with
  | nil =>
    simp only [totalDelta, List.map_nil, List.sum_nil]
    omega
  | cons instruction instructions ih =>
    obtain ⟨low, high⟩ := space.1
    have between : 0 ≤ pointer - 8 * instruction.effect.delta ∧
        pointer - 8 * instruction.effect.delta < 18446744073709551616 := by
      rw [StackEffect.delta]
      omega
    have later := ih space.2 between
    simp only [totalDelta, List.map_cons, List.sum_cons] at later ⊢
    omega

end Instruction

namespace Machine

variable {host : Host} {listing : Listing} {machine later : Machine}
  {instruction : Instruction} {operations : List Operation}

/-- What an instruction does to the stack of a machine, by its declared effect. -/
structure Acts (instruction : Instruction) (machine later : Machine) : Prop where
  /-- The stack pointer moves by the declared number of words. -/
  pointer : ((later.registers .rsp).toNat : Int) =
    (machine.registers .rsp).toNat - 8 * instruction.effect.delta
  /-- The frame pointer is kept. -/
  frame : later.registers .rbp = machine.registers .rbp
  /-- Everything deeper than the words that are taken is kept. -/
  deeper : ∀ address : UInt64,
    (machine.registers .rsp).toNat + 8 * instruction.effect.pops.toNat ≤ address.toNat →
      later.memory address = machine.memory address
  /-- The words that are left on top are what an interpreter makes of those that are taken. -/
  top : (Session.act ⟨machine.topWords instruction.effect.pops.toNat, []⟩ instruction).map
    Session.stack = some (later.topWords instruction.effect.pushes.toNat)

/-- The machine comes to the end of some lines, follows no others on its way, and has done by
then what the instruction declares. -/
def Performs (host : Host) (listing : Listing) (instruction : Instruction) (lines : List Line)
    (machine : Machine) : Prop :=
  ∃ later, Traverses host listing machine.place (machine.place + lines.length) machine later ∧
    later.place = machine.place + lines.length ∧ Acts instruction machine later

/-- The address behind the words that an instruction takes. -/
def floor (machine : Machine) (instruction : Instruction) : UInt64 :=
  machine.registers .rsp + UInt64.ofNat (8 * instruction.effect.pops.toNat)

/-- The address behind the words that an instruction takes as a number. -/
theorem toNat_floor (space : instruction.HasSpace (machine.registers .rsp).toNat) :
    (machine.floor instruction).toNat =
      (machine.registers .rsp).toNat + 8 * instruction.effect.pops.toNat := by
  have high := space.high
  rw [floor, UInt64.toNat_add, UInt64.toNat_ofNat']
  omega

/-- A desk with the words that an interpreter leaves tells what the instruction did. -/
theorem Acts.of_serves {desk : Desk} (space : instruction.HasSpace (machine.registers .rsp).toNat)
    (serves : later.Serves machine (machine.floor instruction) desk)
    (acted : (Session.act ⟨machine.topWords instruction.effect.pops.toNat, []⟩ instruction).map
      Session.stack = some desk.words) : Acts instruction machine later := by
  have number := toNat_floor space
  have low := space.low
  have high := space.high
  have length : desk.words.length = instruction.effect.pushes.toNat := by
    let session : Session := ⟨machine.topWords instruction.effect.pops.toNat, []⟩
    have taken : session.stack.length = instruction.effect.pops.toNat := by
      simp [session, topWords]
    obtain ⟨after, done, changed⟩ := Session.act_of_pops (Nat.le_of_eq taken.symm)
    have words : after.stack = desk.words := by
      rw [done] at acted
      exact Option.some.inj acted
    rw [words, taken, StackEffect.delta] at changed
    omega
  refine ⟨?_, serves.frame, ?_, ?_⟩
  · have pointer : later.registers .rsp =
        machine.floor instruction - UInt64.ofNat (8 * desk.words.length) := serves.words.pointer
    rw [pointer, UInt64.toNat_sub, UInt64.toNat_ofNat', number, length, StackEffect.delta]
    omega
  · intro address above
    apply serves.deeper
    rw [UInt64.le_iff_toNat_le, number]
    exact above
  · rw [acted, ← length, serves.topWords_eq]

/-- Code that stays on the desk and leaves there what an interpreter leaves. -/
theorem performs_of_desk {after : Desk}
    (has : listing.Has machine.place ((Block.atMargin operations).map Line.statement))
    (space : instruction.HasSpace (machine.registers .rsp).toNat)
    (done : Desk.followAll instruction.effect.pushes.toNat
      ⟨machine.topWords instruction.effect.pops.toNat, machine.registers⟩ operations = some after)
    (acted : (Session.act ⟨machine.topWords instruction.effect.pops.toNat, []⟩ instruction).map
      Session.stack = some after.words) :
    machine.Performs host listing instruction (Block.atMargin operations) := by
  have room : 8 * instruction.effect.pushes.toNat ≤ (machine.floor instruction).toNat := by
    rw [toNat_floor space]
    have low := space.low
    omega
  obtain ⟨later, followed, serves⟩ :=
    (machine.serves_topWords instruction.effect.pops.toNat).followAll room done
  rw [Block.map_statement_atMargin] at has
  have straight : (operations.map Operation.statement).all Statement.isStraight = true :=
    Desk.isStraight_of_followAll done
  have length : (Block.atMargin operations).length =
    (operations.map Operation.statement).length := by simp [Block.atMargin]
  rw [Performs, length]
  obtain ⟨traversed, place⟩ :=
    traverses_of_followAll has straight followed ⟨Nat.le_refl _, Nat.le_refl _⟩
  exact ⟨later, traversed, place, Acts.of_serves space serves acted⟩

/-- The code of a number pushes it, at once or through a register. -/
theorem performs_push {value : UInt64}
    (has : listing.Has machine.place
      ((Block.atMargin (Block.pushNumber value)).map Line.statement))
    (space : (Instruction.push value).HasSpace (machine.registers .rsp).toNat) :
    machine.Performs host listing (.push value) (Block.atMargin (Block.pushNumber value)) := by
  unfold Block.pushNumber at has ⊢
  split at has
  · rename_i small
    rw [if_pos small]
    refine performs_of_desk has space rfl ?_
    rw [extended_of_le small]
    rfl
  · rename_i large
    rw [if_neg large]
    refine performs_of_desk has space rfl ?_
    rw [wide_toNat]
    rfl

/-- Printing keeps the words of a desk, whatever it leaves in the registers. -/
theorem Prints.serves {start : Machine} {floor value : UInt64} {desk : Desk}
    (prints : machine.Prints value later) (serves : machine.Serves start floor desk)
    (fits : 8 * desk.words.length ≤ floor.toNat) :
    later.Serves start floor ⟨desk.words, later.registers⟩ := by
  refine ⟨prints.frame.trans serves.frame, ?_, ?_, fun _ _ => rfl⟩
  · refine serves.words.of_above fits ?_ ?_ prints.above
    · simp
    · simp [prints.pointer]
  · intro address high
    have pointer : (machine.registers .rsp).toNat = floor.toNat - 8 * desk.words.length :=
      serves.words.toNat_pointer fits
    rw [← serves.deeper address high]
    apply prints.above
    rw [UInt64.le_iff_toNat_le] at high ⊢
    omega

/-- The code of `.` takes the top away and keeps everything else. -/
theorem performs_print
    (has : listing.Has machine.place
      ((Block.atMargin (.pop .rsi :: Block.printNumber)).map Line.statement))
    (format : listing.HasFormat host)
    (space : Instruction.print.HasSpace (machine.registers .rsp).toNat) :
    machine.Performs host listing .print (Block.atMargin (.pop .rsi :: Block.printNumber)) := by
  rw [Block.map_statement_atMargin] at has
  obtain ⟨popped, taken, serves⟩ :=
    (machine.serves_topWords 1).follow (Nat.zero_le _)
      (show Desk.follow 0 ⟨machine.topWords 1, machine.registers⟩ (.pop .rsi) = some _ from rfl)
  obtain ⟨later, printed, prints⟩ := followAll_printNumber format popped
  have followed : followAll host listing
      ((Operation.pop .rsi :: Block.printNumber).map Operation.statement) machine = some later := by
    rw [List.map_cons, followAll, taken]
    exact printed
  obtain ⟨traversed, place⟩ :=
    traverses_of_followAll has rfl followed ⟨Nat.le_refl _, Nat.le_refl _⟩
  exact ⟨later, traversed, place,
    Acts.of_serves space (prints.serves serves (Nat.zero_le _)) rfl⟩

/-! ## The walk over the stack -/

section Walk

variable {start skipped : Nat} {loop : LoopNumber} {origin : Machine} {bottom : UInt64}

/-- A straight part of a dump is traversed. -/
theorem traverses_part {statements : List Statement} (place : machine.place = start + skipped)
    (has : listing.Has (start + skipped) statements)
    (straight : statements.all Statement.isStraight = true)
    (followed : followAll host listing statements machine = some later)
    (inside : skipped + statements.length ≤ 17) :
    Traverses host listing start (start + 17) machine later ∧
      later.place = start + (skipped + statements.length) := by
  rw [← place] at has
  obtain ⟨traversed, behind⟩ :=
    traverses_of_followAll has straight followed
      (show start ≤ machine.place ∧ machine.place + statements.length ≤ start + 17 by omega)
  exact ⟨traversed, by omega⟩

/-- A line of a dump that jumps is traversed. -/
theorem Traverses.jump {between : Machine}
    (traverses : Traverses host listing start (start + 17) machine between)
    (place : between.place = start + skipped) (inside : skipped < 17)
    (stepped : step host listing between = some later) :
    Traverses host listing start (start + 17) machine later :=
  Relation.ReflTransGen.tail traverses ⟨by omega, stepped⟩

/-- The comparison at the top of the loop is made, and its jump is taken or not. -/
theorem traverses_compared (dump : DumpAt listing start loop) (place : machine.place = start + 2)
    (stepped : step host listing machine.compared = some later) :
    Traverses host listing start (start + 17) machine later := by
  obtain ⟨comparing, comparedPlace⟩ := traverses_part place dump.compare rfl
    (show followAll host listing _ machine = some machine.compared from rfl) (by simp)
  exact comparing.jump comparedPlace (by simp) stepped

/-- The first part of a turn loads a word and puts the pointer of the walk on the stack. -/
theorem traverses_loaded (dump : DumpAt listing start loop) (low : 8 ≤ bottom.toNat)
    (serves : machine.Serves origin bottom ⟨[], machine.registers⟩)
    (place : machine.place = start + 2)
    (above : ¬(machine.registers .rbx).toInt64 < (machine.registers .rsp).toInt64) :
    ∃ loaded, Traverses host listing start (start + 17) machine loaded ∧
      loaded.place = start + 7 ∧
      loaded.Serves origin bottom ⟨[machine.registers .rbx], loaded.registers⟩ := by
  have stays : Traverses host listing start (start + 17) machine machine.compared.next :=
    traverses_compared dump place (step_compared_of_not_lt dump place above)
  have staysPlace : machine.compared.next.place = start + 5 := congrArg (· + 3) place
  let word := machine.memory.load (machine.registers .rbx)
  let argued := (machine.compared.next.set .rsi word).next
  obtain ⟨loading, loadedPlace⟩ := traverses_part staysPlace dump.load rfl
    (show followAll host listing _ machine.compared.next =
      some (argued.push (machine.registers .rbx)).next from rfl) (by decide)
  let desk : Desk := ⟨[], Function.update machine.registers .rsi word⟩
  have set : (machine.set .rsi word).Serves origin bottom desk := serves.set rfl
  have kept : argued.Serves origin bottom desk := set.of_eq rfl rfl
  have put : (argued.push (machine.registers .rbx)).Serves origin bottom
      ⟨[machine.registers .rbx], desk.registers⟩ :=
    kept.put (show 8 * 1 ≤ bottom.toNat from low) rfl
  have loaded : (argued.push (machine.registers .rbx)).next.Serves origin bottom
      ⟨[machine.registers .rbx], desk.registers⟩ := put.of_eq rfl rfl
  exact ⟨_, stays.trans loading, loadedPlace, loaded.refresh⟩

/-- The last part of a turn takes the pointer of the walk back, moves it and goes to the top. -/
theorem traverses_moved {pointer : UInt64} (dump : DumpAt listing start loop)
    (low : 8 ≤ bottom.toNat)
    (serves : machine.Serves origin bottom ⟨[pointer], machine.registers⟩)
    (place : machine.place = start + 13) :
    ∃ later, Traverses host listing start (start + 17) machine later ∧ later.place = start + 2 ∧
      later.Serves origin bottom ⟨[], later.registers⟩ ∧ later.registers .rbx = pointer - 8 := by
  let desk : Desk := ⟨[], Function.update (Function.update machine.registers .rbx pointer) .rbx
    (pointer - extended 8)⟩
  have done : Desk.followAll 1 ⟨[pointer], machine.registers⟩
      [.pop .rbx, .subtractImmediate 8 .rbx] = some desk := rfl
  obtain ⟨moved, followed, served⟩ :=
    serves.followAll (show 8 * 1 ≤ bottom.toNat from low) done
  obtain ⟨moving, movedPlace⟩ := traverses_part place dump.move rfl followed (by decide)
  have turned : Traverses host listing start (start + 17) machine
      { moved with place := start + 2 } :=
    moving.jump movedPlace (by decide) (step_turn dump movedPlace)
  have kept : { moved with place := start + 2 }.Serves origin bottom desk := served.of_eq rfl rfl
  have eight : extended 8 = 8 := by decide
  have register : desk.registers .rbx = pointer - 8 := by simp [desk, eight]
  exact ⟨_, turned, rfl, kept.refresh, (kept.registers .rbx (by decide)).trans register⟩

/-- A turn of the walk keeps the stack, whatever the pointer of the walk is. -/
theorem traverses_turn (dump : DumpAt listing start loop) (format : listing.HasFormat host)
    (low : 8 ≤ bottom.toNat) (serves : machine.Serves origin bottom ⟨[], machine.registers⟩)
    (place : machine.place = start + 2)
    (above : ¬(machine.registers .rbx).toInt64 < (machine.registers .rsp).toInt64) :
    ∃ later, Traverses host listing start (start + 17) machine later ∧ later.place = start + 2 ∧
      later.Serves origin bottom ⟨[], later.registers⟩ ∧
      later.registers .rbx = machine.registers .rbx - 8 := by
  obtain ⟨loaded, loading, loadedPlace, deeper⟩ :=
    traverses_loaded dump low serves place above
  obtain ⟨printed, followed, prints⟩ := followAll_printNumber format loaded
  obtain ⟨printing, printedPlace⟩ := traverses_part loadedPlace dump.print rfl followed (by decide)
  have kept : printed.Serves origin bottom ⟨[machine.registers .rbx], printed.registers⟩ :=
    prints.serves deeper low
  obtain ⟨later, moving, movedPlace, rest, moved⟩ :=
    traverses_moved dump low kept printedPlace
  exact ⟨later, (loading.trans printing).trans moving, movedPlace, rest, moved⟩

/-- The walk ends and keeps the stack, whatever its pointer is: it goes down by one word with
every turn and cannot pass the stack pointer, which does not look negative. -/
theorem traverses_walk (dump : DumpAt listing start loop) (format : listing.HasFormat host)
    (low : 8 ≤ bottom.toNat) (high : bottom.toNat < 9223372036854775808)
    (serves : machine.Serves origin bottom ⟨[], machine.registers⟩)
    (place : machine.place = start + 2) :
    ∃ later, Traverses host listing start (start + 17) machine later ∧ later.place = start + 17 ∧
      later.Serves origin bottom ⟨[], later.registers⟩ := by
  -- The induction is on the pointer of the walk as an unsigned number.
  generalize counted : (machine.registers .rbx).toNat = count
  induction count using Nat.strongRecOn generalizing machine with
  | ind count ih =>
    by_cases below : (machine.registers .rbx).toInt64 < (machine.registers .rsp).toInt64
    · have leaves : Traverses host listing start (start + 17) machine
          { machine.compared with place := start + 16 } :=
        traverses_compared dump place (step_compared_of_lt dump place below)
      have ends : Traverses host listing start (start + 17) machine
          { machine.compared with place := start + 17 } :=
        leaves.jump (show _ = start + 16 from rfl) (by decide) (step_finish dump machine.compared)
      have kept : { machine.compared with place := start + 17 }.Serves origin bottom
          ⟨[], machine.registers⟩ := serves.of_eq rfl rfl
      exact ⟨_, ends, rfl, kept⟩
    · obtain ⟨between, turned, placed, kept, moved⟩ :=
        traverses_turn dump format low serves place below
      have smaller : (between.registers .rbx).toNat < count := by
        have pointer : (machine.registers .rsp).toNat = bottom.toNat :=
          serves.words.toNat_pointer (Nat.zero_le _)
        rw [Int64.lt_iff_toInt_lt, toInt_toInt64, toInt_toInt64, pointer] at below
        have bound := (machine.registers .rbx).toNat_lt
        have eight : (8 : UInt64).toNat = 8 := rfl
        rw [moved, UInt64.toNat_sub, eight]
        omega
      obtain ⟨later, walked, ended, served⟩ := ih _ smaller kept placed rfl
      exact ⟨later, turned.trans walked, ended, served⟩

/-- The code of `.s` keeps the stack, whatever the frame pointer is. -/
theorem performs_dump
    (has : listing.Has machine.place ((Block.dumpStack loop).map Line.statement))
    (format : listing.HasFormat host)
    (space : (Instruction.dump loop).HasSpace (machine.registers .rsp).toNat) :
    machine.Performs host listing (.dump loop) (Block.dumpStack loop) := by
  have dump := DumpAt.of_has has
  have number := toNat_floor space
  have low : 8 ≤ (machine.floor (.dump loop)).toNat := by
    have enough := space.low
    simp only [Instruction.effect, Instruction.spare, UInt8.reduceToNat] at enough number
    omega
  have high : (machine.floor (.dump loop)).toNat < 9223372036854775808 := by
    have bound := space.high
    simp only [Instruction.effect, Instruction.spare, UInt8.reduceToNat] at bound number
    omega
  let begun := ((machine.set .rbx (machine.registers .rbp)).next.calculate .rbx
    (machine.registers .rbp - extended 8)).next
  obtain ⟨begin, beginPlace⟩ := traverses_part (Nat.add_zero _).symm dump.begin rfl
    (show followAll host listing _ machine = some begun from rfl) (by decide)
  have empty : machine.Serves machine (machine.floor (.dump loop)) ⟨[], machine.registers⟩ :=
    machine.serves_topWords 0
  let copied := machine.set .rbx (machine.registers .rbp)
  have copying : copied.Serves machine (machine.floor (.dump loop)) ⟨[], copied.registers⟩ :=
    empty.set rfl
  have moving : (copied.set .rbx (machine.registers .rbp - extended 8)).Serves machine
      (machine.floor (.dump loop)) ⟨[], begun.registers⟩ := copying.set rfl
  have served : begun.Serves machine (machine.floor (.dump loop)) ⟨[], begun.registers⟩ :=
    moving.of_eq rfl rfl
  obtain ⟨later, walked, ended, kept⟩ :=
    traverses_walk dump format low high served beginPlace
  exact ⟨later, begin.trans walked, ended, Acts.of_serves space kept rfl⟩

end Walk

/-- The code of an instruction does to the stack what the instruction declares, on every
machine. -/
theorem performs_block {block : Block} (compiled : Block.ofInstruction? instruction = some block)
    (has : listing.Has machine.place (block.lines.map Line.statement))
    (format : listing.HasFormat host)
    (space : instruction.HasSpace (machine.registers .rsp).toNat) :
    machine.Performs host listing instruction block.lines := by
  cases instruction with
  | push value =>
    cases compiled
    exact performs_push has space
  | print =>
    cases compiled
    exact performs_print has format space
  | dump loop =>
    cases compiled
    exact performs_dump has format space
  | unrecognized text => contradiction
  | _ =>
    cases compiled
    exact performs_of_desk has space rfl rfl

end Machine

/-- An address some words below another one as a number, if it is an address. -/
theorem toNat_below {base : UInt64} {words : Int} (low : 0 ≤ (base.toNat : Int) - 8 * words)
    (high : (base.toNat : Int) - 8 * words < 18446744073709551616) :
    ((below base words).toNat : Int) = base.toNat - 8 * words := by
  have bound := base.toNat_lt
  have distance : (UInt64.ofInt (8 * words)).toNat =
      ((8 * words) % 18446744073709551616).toNat % 18446744073709551616 := by
    rw [UInt64.ofInt, UInt64.toNat_ofNat']
    rfl
  rw [below, UInt64.toNat_sub, distance]
  omega

namespace Program

/-- The place between the blocks of some instructions and what follows them. -/
def boundary (done : List Instruction) : Nat :=
  (opening ++ blockLines done).length

/-- The blocks of instructions stand one after the other. -/
theorem blockLines_append (done rest : List Instruction) :
    blockLines (done ++ rest) = blockLines done ++ blockLines rest := by
  rw [blockLines, List.filterMap_append, List.flatMap_append, ← blockLines, ← blockLines]

end Program

namespace Machine

variable {host : Host} {listing : Listing} {machine state : Machine}
  {instructions done rest : List Instruction}

/-- Blocks that have space are followed to their end, also where the stack is too short. -/
theorem reaches_blocks
    (has : listing.Has machine.place ((Program.blockLines instructions).map Line.statement))
    (format : listing.HasFormat host)
    (space : Instruction.HaveSpace (machine.registers .rsp).toNat instructions) :
    ∃ later, Reaches host listing machine later ∧
      later.place = machine.place + (Program.blockLines instructions).length := by
  induction instructions generalizing machine with
  | nil => exact ⟨machine, Relation.ReflTransGen.refl, rfl⟩
  | cons instruction instructions ih =>
    cases compiled : Block.ofInstruction? instruction with
    | none =>
      have others := space.2
      rw [Block.delta_of_none compiled, Int.mul_zero, Int.sub_zero] at others
      rw [Program.blockLines_cons_none compiled] at has ⊢
      exact ih has others
    | some block =>
      rw [Program.blockLines_cons_some compiled] at has ⊢
      rw [List.map_append] at has
      have passed : step host listing machine = some machine.next := by
        rw [step, has.left.head]
        rfl
      have current : listing.Has machine.next.place (block.lines.map Line.statement) :=
        has.left.tail
      obtain ⟨between, traversed, place, acts⟩ := performs_block compiled current format space.1
      have following : listing.Has between.place
          ((Program.blockLines instructions).map Line.statement) := by
        have behind := has.right
        rw [List.length_map, List.length_cons, ← Nat.add_assoc, Nat.add_right_comm] at behind
        rw [place]
        exact behind
      have others : Instruction.HaveSpace (between.registers .rsp).toNat instructions := by
        rw [acts.pointer]
        exact space.2
      obtain ⟨later, reached, ended⟩ := ih following others
      have begun : Reaches host listing machine between :=
        Relation.ReflTransGen.head passed traversed.reaches
      refine ⟨later, begun.trans reached, ?_⟩
      rw [ended, place, List.length_append, List.length_cons]
      simp only [Machine.next]
      omega

/-- Between two blocks the pointers of the stack are as far apart as the instructions before
declare, as addresses. -/
theorem Entering.pointers_at_boundary (entering : machine.Entering listing (done ++ rest))
    (reached : Reaches host listing machine state)
    (place : state.place = Program.boundary done) :
    state.registers .rbp = machine.registers .rsp ∧
      state.registers .rsp = below (machine.registers .rsp) (Instruction.totalDelta done) := by
  have boundary : state.place = 9 + (Program.blockLines done).length := by
    rw [place, Program.boundary, List.length_append]
    rfl
  rcases entering.reaches_cases reached with rfl | rfl | reached
  · have first := entering.place
    omega
  · have second : machine.next.place = 7 + 1 := congrArg (· + 1) entering.place
    omega
  · obtain ⟨index, line, stands⟩ := entering.inCode_of_reaches reached
    have counted : index = (Program.blockLines done).length + 0 := by
      have found := stands.place
      omega
    have level := Program.level_through_blockLines done Knowledge.level_entry
    refine ⟨stands.frame_eq, ?_⟩
    have covers := stands.covers.registers .rsp
    rw [(Knowledge.pointers_atLine _ line).1, counted, Program.code, Program.blockLines_append,
      List.append_assoc, Knowledge.before_append_right] at covers
    have pointer : ((Knowledge.entry.through (Program.blockLines done)).before
        (Program.blockLines rest ++ .blank :: Program.closing) 0).registers .rsp =
          .depth (0 + Instruction.totalDelta done) := level.pointer
    rw [pointer, Int.zero_add] at covers
    exact covers

/-- The place behind blocks that have space is reached. -/
theorem Entering.reaches_boundary (entering : machine.Entering listing (done ++ rest))
    (format : listing.HasFormat host)
    (space : Instruction.HaveSpace (machine.registers .rsp).toNat done) :
    ∃ state, Reaches host listing machine state ∧ state.place = Program.boundary done := by
  have opened : machine.opened.place = 9 := congrArg (· + 2) entering.place
  have code := entering.code
  rw [Program.code, Program.blockLines_append, List.append_assoc, List.map_append,
    ← opened] at code
  obtain ⟨later, reached, place⟩ := reaches_blocks code.left format space
  refine ⟨later, (entering.reaches_opened host).trans reached, ?_⟩
  rw [place, opened, Program.boundary, List.length_append]
  rfl

/-- Between two blocks that have space the pointers of the stack are as far apart as the
instructions before declare, as numbers. -/
theorem Entering.distance_at_boundary (entering : machine.Entering listing (done ++ rest))
    (space : Instruction.HaveSpace (machine.registers .rsp).toNat done)
    (reached : Reaches host listing machine state)
    (place : state.place = Program.boundary done) :
    ((state.registers .rbp).toNat : Int) - (state.registers .rsp).toNat =
      8 * Instruction.totalDelta done := by
  have bound := (machine.registers .rsp).toNat_lt
  obtain ⟨low, high⟩ := space.bounds (by omega)
  obtain ⟨frame, pointer⟩ := entering.pointers_at_boundary reached place
  rw [frame, pointer, toNat_below low high]
  omega

end Machine

namespace Program

/-- The code of an instruction does to the stack of every machine what the instruction declares:
the text of its block is read as statements that lead from their first line to behind their last
one, following no others, and move the stack pointer by the declared number of words, keep
everything deeper than the words that are taken, and leave on top what is made from those.

So whatever words are compiled, between two blocks the frame pointer and the stack pointer are
as many words apart as the instructions before declare in sum, also where that is negative: as
machine words in any case, and as numbers, with every such place reached, where the touched
addresses do not look negative. -/
theorem code_has_declared_effects :
    (∀ (instruction : Instruction) (block : Block),
      Block.ofInstruction? instruction = some block →
      ∃ statements, (cutAt '\n' block.text.toList).mapM Statement.ofLine? =
          some (statements ++ [.blank]) ∧
        ∀ (host : Host) (listing : Listing) (machine : Machine),
          listing.Has machine.place statements → listing.HasFormat host →
          instruction.HasSpace (machine.registers .rsp).toNat →
          ∃ later, Machine.Traverses host listing machine.place
              (machine.place + statements.length) machine later ∧
            later.place = machine.place + statements.length ∧
            Machine.Acts instruction machine later) ∧
    ∀ (words : List Word) (compilation : Compilation),
      (Compilation.ofWords words).outcome = .ok compilation →
      Word.dumps words < UInt32.size →
      ∃ listing start, Listing.ofText? compilation.assembly = some listing ∧
        listing.place? "_start" = some start ∧
        ∀ (host : Host) (machine : Machine) (done rest : List Instruction),
          machine.place = start → Instruction.sequence 0 words = done ++ rest →
          (∀ state, Machine.Reaches host listing machine state → state.place = boundary done →
            state.registers .rbp - state.registers .rsp =
              UInt64.ofInt (8 * Instruction.totalDelta done)) ∧
          (Instruction.HaveSpace (machine.registers .rsp).toNat done →
            (∃ state, Machine.Reaches host listing machine state ∧
              state.place = boundary done) ∧
            ∀ state, Machine.Reaches host listing machine state →
              state.place = boundary done →
              ((state.registers .rbp).toNat : Int) - (state.registers .rsp).toNat =
                8 * Instruction.totalDelta done) := by
  refine ⟨?_, ?_⟩
  · intro instruction block compiled
    refine ⟨block.lines.map Line.statement,
      Line.mapM_ofLine?_rows fun line => Block.isReadable_lines compiled, ?_⟩
    intro host listing machine has format space
    rw [List.length_map]
    exact Machine.performs_block compiled has format space
  · intro words compilation compiled few
    obtain ⟨_, rfl⟩ := (Compilation.outcome_ofWords_eq_ok_iff words compilation).mp compiled
    obtain ⟨listing, read, statements⟩ := ofText?_text few
    obtain ⟨entry, _, _⟩ := has_parts statements
    refine ⟨listing, 7, read, entry.place?, ?_⟩
    intro host machine done rest place split
    rw [split] at statements
    have entering : machine.Entering listing (done ++ rest) := ⟨place, entry, has_code statements⟩
    refine ⟨?_, ?_⟩
    · intro state reached there
      obtain ⟨frame, pointer⟩ := entering.pointers_at_boundary reached there
      rw [frame, pointer, below]
      grind
    · intro space
      exact ⟨entering.reaches_boundary (hasFormat statements host) space,
        fun state => entering.distance_at_boundary space⟩

/-- Printing from an empty stack that begins at 4096, with routines that clear everything they
may: behind the first block the stack pointer is one word above the frame pointer; and the block
takes one word from the stack wherever it stands. -/
theorem code_has_declared_effects_short :
    ∃ listing start,
      Listing.ofText? (Compilation.ofFitting Compilation.shortWords).assembly = some listing ∧
      listing.place? "_start" = some start ∧
      (∃ state, Machine.Reaches Host.careless listing (Machine.launched start 4096) state ∧
        state.place = boundary [.print] ∧
        ((state.registers .rbp).toNat : Int) - (state.registers .rsp).toNat = -8) ∧
      ∃ later, Machine.Traverses Host.careless listing 10 17 (Machine.launched 10 8192) later ∧
        later.place = 17 ∧ Machine.Acts .print (Machine.launched 10 8192) later := by
  obtain ⟨blocks, programs⟩ := code_has_declared_effects
  have compiled : (Compilation.ofWords Compilation.shortWords).outcome =
      .ok (Compilation.ofFitting Compilation.shortWords) := by
    rw [Compilation.outcome_ofWords_eq_ok_iff]
    exact ⟨by decide, rfl⟩
  have few : Word.dumps Compilation.shortWords < UInt32.size := by decide
  have sequence : Instruction.sequence 0 Compilation.shortWords = [.print] ++ [.dump ⟨0⟩] := by
    decide
  obtain ⟨listing, start, read, placed, runs⟩ := programs _ _ compiled few
  obtain ⟨-, numbers⟩ :=
    runs Host.careless (Machine.launched start 4096) [.print] [.dump ⟨0⟩] rfl sequence
  obtain ⟨⟨state, reached, place⟩, distance⟩ :=
    numbers (show Instruction.HaveSpace 4096 _ by decide)
  obtain ⟨lines, written, acts⟩ := blocks .print _ rfl
  -- The block stands behind the entry point and an empty line.
  obtain ⟨same, again, statements⟩ := ofText?_text few
  obtain rfl : listing = same := Option.some.inj (read.symm.trans again)
  rw [sequence] at statements
  have rows : (cutAt '\n' _).mapM Statement.ofLine? = some (_ ++ [.blank]) :=
    Line.mapM_ofLine?_rows fun line => Block.isReadable_lines
      (show Block.ofInstruction? .print = some _ from rfl)
  obtain rfl := List.append_cancel_right (Option.some.inj (written.symm.trans rows))
  obtain ⟨later, traversed, ended, acted⟩ := acts Host.careless listing (Machine.launched 10 8192)
    (has_parts statements).2.1.tail.left (hasFormat statements _)
    (show Instruction.print.HasSpace 8192 by decide)
  exact ⟨listing, start, read, placed, ⟨state, reached, place, distance state reached place⟩,
    later, traversed, ended, acted⟩

end Program

end ForthAsm
