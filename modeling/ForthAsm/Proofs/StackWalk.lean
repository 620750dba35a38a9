import ForthAsm.Proofs.Execution

/-!
# Walking over the stack

The code of a stack dump walks over the stack that it stands on: a pointer goes down from the
oldest word, and while a number is printed the pointer itself is the top of the stack. The
walk ends when the pointer is below the stack pointer, compared as signed numbers, so the
stack has to lie among the addresses that do not look negative.

Main statement: `Machine.reaches_dumpStack`, the whole stack is printed, the oldest word first,
and is there afterwards.
-/

namespace ForthAsm

/-- Some of the statements that stand from a line on. -/
theorem Listing.Has.slice {listing : Listing} {place : Nat} {statements : List Statement}
    (has : listing.Has place statements) {skipped : Nat} (inside : skipped ≤ statements.length)
    (count : Nat) : listing.Has (place + skipped) ((statements.drop skipped).take count) := by
  have whole : listing.Has place (statements.take skipped ++ statements.drop skipped) := by
    rw [List.take_append_drop]
    exact has
  have later := whole.right
  rw [List.length_take, Nat.min_eq_left inside,
    ← List.take_append_drop count (statements.drop skipped)] at later
  exact later.left

namespace Machine

variable {host : Host} {listing : Listing} {machine : Machine} {base : UInt64}
  {stack : List UInt64} {start index : Nat} {loop : LoopNumber}

/-- A word with the sign of its highest bit. -/
theorem toInt_toInt64 (word : UInt64) :
    word.toInt64.toInt =
      if word.toNat < 9223372036854775808 then (word.toNat : Int)
      else word.toNat - 18446744073709551616 := by
  change word.toBitVec.toInt = _
  rw [BitVec.toInt_eq_toNat_cond]
  change (if 2 * word.toNat < 18446744073709551616 then (word.toNat : Int)
    else word.toNat - 18446744073709551616) = _
  split <;> split <;> omega

/-- The pointer of the walk is below the stack pointer exactly behind the last word. -/
theorem Holds.slot_lt_pointer_iff (holds : machine.Holds base stack)
    (room : 8 * (stack.length + 1) ≤ base.toNat) (low : 0 ≤ base.toInt64.toInt)
    (bound : index ≤ stack.length) :
    (slot base index).toInt64 < (machine.registers .rsp).toInt64 ↔ stack.length ≤ index := by
  have pointer := holds.toNat_pointer (by omega)
  have place : (slot base index).toNat = base.toNat - 8 * (index + 1) := toNat_slot (by omega)
  rw [toInt_toInt64] at low
  rw [Int64.lt_iff_toInt_lt, toInt_toInt64, toInt_toInt64, pointer, place]
  have bound := base.toNat_lt
  omega

/-- The parts of a dump and where they stand. -/
structure DumpAt (listing : Listing) (start : Nat) (loop : LoopNumber) : Prop where
  /-- Let the pointer begin at the oldest word. -/
  begin : listing.Has start ([.move .rbp .rbx, .subtractImmediate 8 .rbx].map Operation.statement)
  /-- At the top of the loop, compare the pointer with the stack pointer. -/
  compare : listing.Has (start + 2)
    [.label loop.topName, (Operation.compare .rsp .rbx).statement]
  /-- Leave the loop behind the last word. -/
  leave : listing.Has (start + 4) ([.jumpLess (.loopEnd loop)].map Operation.statement)
  /-- Load a word and put the pointer aside. -/
  load : listing.Has (start + 5) ([.load .rbx .rsi, .push .rbx].map Operation.statement)
  /-- Print the word. -/
  print : listing.Has (start + 7) (Block.printNumber.map Operation.statement)
  /-- Take the pointer back and move it. -/
  move : listing.Has (start + 13) ([.pop .rbx, .subtractImmediate 8 .rbx].map Operation.statement)
  /-- Go back to the top. -/
  turn : listing.Has (start + 15) ([.jump (.loopTop loop)].map Operation.statement)
  /-- The end of the loop. -/
  finish : listing.Has (start + 16) [.label loop.endName]

/-- The parts of a dump stand where the dump stands. -/
theorem DumpAt.of_has
    (has : listing.Has start ((Block.dumpStack loop).map Line.statement)) :
    DumpAt listing start loop := by
  have part : ∀ {skipped : Nat} (count : Nat), skipped ≤ 17 → listing.Has (start + skipped)
      ((((Block.dumpStack loop).map Line.statement).drop skipped).take count) :=
    fun count inside => has.slice inside count
  exact ⟨part 2 (Nat.zero_le 17), part 2 (by decide), part 1 (by decide), part 2 (by decide),
    part 6 (by decide), part 2 (by decide), part 1 (by decide), part 1 (by decide)⟩

/-- The machine after the comparison at the top of the loop. -/
def compared (machine : Machine) : Machine :=
  { machine with
    place := machine.place + 2
    less := some ((machine.registers .rbx).toInt64 < (machine.registers .rsp).toInt64) }

/-- The comparison is made. -/
theorem reaches_compared (dump : DumpAt listing start loop) (place : machine.place = start + 2) :
    Reaches host listing machine machine.compared := by
  have has := dump.compare
  rw [← place] at has
  exact (reaches_of_followAll has rfl rfl).1

/-- Before the last word the jump is not taken. -/
theorem step_compared_of_not_lt (dump : DumpAt listing start loop)
    (place : machine.place = start + 2)
    (above : ¬(machine.registers .rbx).toInt64 < (machine.registers .rsp).toInt64) :
    step host listing machine.compared = some machine.compared.next := by
  rw [step, show machine.compared.place = start + 4 from congrArg (· + 2) place, dump.leave.head]
  simp [follow, execute, Operation.statement, compared, above]

/-- Behind the last word the jump leads to the end of the loop. -/
theorem step_compared_of_lt (dump : DumpAt listing start loop) (place : machine.place = start + 2)
    (below : (machine.registers .rbx).toInt64 < (machine.registers .rsp).toInt64) :
    step host listing machine.compared = some { machine.compared with place := start + 16 } := by
  rw [step, show machine.compared.place = start + 4 from congrArg (· + 2) place, dump.leave.head]
  simp [follow, execute, Operation.statement, compared, below, goTo, Label.name,
    dump.finish.place?]

/-- The label at the end of the loop is passed. -/
theorem step_finish (dump : DumpAt listing start loop) (machine : Machine) :
    step host listing { machine with place := start + 16 } =
      some { machine with place := start + 17 } := by
  rw [step, dump.finish.head]
  rfl

/-- Before the last word the walk goes on. -/
theorem reaches_load (dump : DumpAt listing start loop) (place : machine.place = start + 2)
    (above : ¬(machine.registers .rbx).toInt64 < (machine.registers .rsp).toInt64) :
    Reaches host listing machine machine.compared.next :=
  (reaches_compared dump place).tail (step_compared_of_not_lt dump place above)

/-- Behind the last word the walk is over. -/
theorem reaches_finish (dump : DumpAt listing start loop) (place : machine.place = start + 2)
    (below : (machine.registers .rbx).toInt64 < (machine.registers .rsp).toInt64) :
    Reaches host listing machine { machine.compared with place := start + 17 } :=
  ((reaches_compared dump place).tail (step_compared_of_lt dump place below)).tail
    (step_finish dump machine.compared)

/-- The jump at the end of a turn leads to the top of the loop. -/
theorem step_turn (dump : DumpAt listing start loop) (place : machine.place = start + 15) :
    step host listing machine = some { machine with place := start + 2 } := by
  rw [step, place, dump.turn.head]
  simp [follow, execute, Operation.statement, goTo, Label.name, dump.compare.place?]

/-- The first part of a turn loads a word and puts the pointer aside on the stack. -/
theorem reaches_loaded (dump : DumpAt listing start loop)
    (room : 8 * (stack.length + 1) ≤ base.toNat) (low : 0 ≤ base.toInt64.toInt)
    (holds : machine.Holds base stack) (place : machine.place = start + 2)
    (pointer : machine.registers .rbx = slot base index) {value : UInt64}
    (found : stack.reverse[index]? = some value) :
    ∃ later, Reaches host listing machine later ∧ later.place = start + 7 ∧
      later.Holds base (slot base index :: stack) ∧ later.registers .rsi = value ∧
      later.held = machine.held ∧ later.written = machine.written := by
  have inside : index < stack.length := by
    simpa using (List.getElem?_eq_some_iff.mp found).1
  have above : ¬(machine.registers .rbx).toInt64 < (machine.registers .rsp).toInt64 := by
    rw [pointer, holds.slot_lt_pointer_iff room low (by omega)]
    omega
  have compared : Reaches host listing machine machine.compared.next :=
    reaches_load dump place above
  have comparedPlace : machine.compared.next.place = start + 5 := congrArg (· + 3) place
  have loading := dump.load
  rw [← comparedPlace] at loading
  have word : machine.memory.load (machine.registers .rbx) = value := by
    rw [pointer]
    exact holds.slots index value found
  let loaded := ((machine.compared.next.set .rsi value).next.push (slot base index)).next
  have followed : followAll host listing
      ([Operation.load .rbx .rsi, .push .rbx].map Operation.statement) machine.compared.next =
        some loaded := by
    simp only [loaded, ← word, ← pointer]
    rfl
  obtain ⟨load, loadPlace⟩ := reaches_of_followAll loading rfl followed
  have kept : machine.compared.next.Holds base stack := holds.of_eq rfl rfl rfl
  refine ⟨loaded, compared.trans load, ?_, ?_, ?_, rfl, rfl⟩
  · rw [loadPlace, comparedPlace]
    rfl
  · exact ((kept.set (by decide) value).next.push room (slot base index)).next
  · simp [loaded]

/-- The last part of a turn takes the pointer back, moves it and goes to the top again. -/
theorem reaches_moved (dump : DumpAt listing start loop)
    (holds : machine.Holds base (slot base index :: stack)) (place : machine.place = start + 13) :
    ∃ later, Reaches host listing machine later ∧ later.place = start + 2 ∧
      later.Holds base stack ∧ later.registers .rbx = slot base (index + 1) ∧
      later.held = machine.held ∧ later.written = machine.written := by
  have moving := dump.move
  rw [← place] at moving
  let moved := ((machine.pop .rbx).next.calculate .rbx
    ((machine.pop .rbx).next.registers .rbx - extended 8)).next
  have followed : followAll host listing
      ([Operation.pop .rbx, .subtractImmediate 8 .rbx].map Operation.statement) machine =
        some moved := rfl
  obtain ⟨move, movePlace⟩ := reaches_of_followAll moving rfl followed
  rw [place] at movePlace
  have turns : step host listing moved = some { moved with place := start + 2 } :=
    step_turn dump movePlace
  have kept : moved.Holds base stack :=
    ((holds.pop (by decide)).next.calculate (by decide) _).next
  refine ⟨_, move.tail turns, rfl, kept.of_eq rfl rfl rfl, ?_, rfl, rfl⟩
  have eight : extended 8 = 8 := by decide
  simp only [moved, registers_next, registers_calculate, registers_pop, ↓reduceIte, holds.top,
    eight]
  exact (sub_words_succ base (index + 1)).symm

/-- A turn of the walk prints one word and moves the pointer to the next one. -/
theorem reaches_turn (dump : DumpAt listing start loop)
    (format : listing.HasFormat host)
    (room : 8 * (stack.length + 1) ≤ base.toNat) (low : 0 ≤ base.toInt64.toInt)
    (holds : machine.Holds base stack) (place : machine.place = start + 2)
    (pointer : machine.registers .rbx = slot base index) {value : UInt64}
    (found : stack.reverse[index]? = some value) :
    ∃ later, Reaches host listing machine later ∧ later.place = start + 2 ∧
      later.Holds base stack ∧ later.registers .rbx = slot base (index + 1) ∧
      later.held = machine.held ++ [value.toInt64.toInt] ∧ later.written = machine.written := by
  obtain ⟨loaded, load, loadPlace, deeper, argument, loadHeld, loadWritten⟩ :=
    reaches_loaded dump room low holds place pointer found
  have printing := dump.print
  rw [← loadPlace] at printing
  obtain ⟨printed, print, printPlace, prints⟩ := reaches_printNumber printing format
  -- While the number is printed the pointer is the top of the stack, so it is kept.
  have kept : printed.Holds base (slot base index :: stack) := prints.holds deeper room
  rw [loadPlace] at printPlace
  obtain ⟨later, move, movePlace, rest, moved, moveHeld, moveWritten⟩ :=
    reaches_moved dump kept printPlace
  refine ⟨later, (load.trans print).trans move, movePlace, rest, moved, ?_, ?_⟩
  · rw [moveHeld, prints.held, loadHeld, argument]
  · rw [moveWritten, prints.written, loadWritten]

/-- The walk prints every word that is left, the older one first, and keeps the stack. -/
theorem reaches_walk (dump : DumpAt listing start loop)
    (format : listing.HasFormat host)
    (room : 8 * (stack.length + 1) ≤ base.toNat) (low : 0 ≤ base.toInt64.toInt)
    (holds : machine.Holds base stack) (place : machine.place = start + 2)
    (bound : index ≤ stack.length) (pointer : machine.registers .rbx = slot base index) :
    ∃ later, Reaches host listing machine later ∧ later.place = start + 17 ∧
      later.Holds base stack ∧
      later.held = machine.held ++
        (stack.reverse.drop index).map (fun word => word.toInt64.toInt) ∧
      later.written = machine.written := by
  -- The induction is on the number of words that are left.
  induction left : stack.length - index generalizing machine index with
  | zero =>
    have behind : index = stack.length := by omega
    have below : (machine.registers .rbx).toInt64 < (machine.registers .rsp).toInt64 := by
      rw [pointer, holds.slot_lt_pointer_iff room low bound]
      omega
    refine ⟨_, reaches_finish dump place below, rfl, holds.of_eq rfl rfl rfl, ?_, rfl⟩
    simp [behind, compared]
  | succ count ih =>
    have inside : index < stack.reverse.length := by
      rw [List.length_reverse]
      omega
    obtain ⟨between, turned, placed, held, moved, printed, written⟩ :=
      reaches_turn dump format room low holds place pointer (List.getElem?_eq_getElem inside)
    obtain ⟨later, walked, ended, kept, rest, same⟩ :=
      ih held placed (by omega) moved (by omega)
    refine ⟨later, turned.trans walked, ended, kept, ?_, same.trans written⟩
    rw [rest, printed, List.drop_eq_getElem_cons inside]
    simp

/-- The code of a dump prints the whole stack, the oldest word first, and keeps it. -/
theorem reaches_dumpStack
    (has : listing.Has machine.place ((Block.dumpStack loop).map Line.statement))
    (format : listing.HasFormat host)
    (room : 8 * (stack.length + 1) ≤ base.toNat) (low : 0 ≤ base.toInt64.toInt)
    (holds : machine.Holds base stack) :
    ∃ later, Reaches host listing machine later ∧
      later.place = machine.place + (Block.dumpStack loop).length ∧ later.Holds base stack ∧
      later.held = machine.held ++ stack.reverse.map (fun word => word.toInt64.toInt) ∧
      later.written = machine.written := by
  have dump := DumpAt.of_has has
  let begun := ((machine.set .rbx (machine.registers .rbp)).next.calculate .rbx
    ((machine.set .rbx (machine.registers .rbp)).next.registers .rbx - extended 8)).next
  obtain ⟨begin, beginPlace⟩ := reaches_of_followAll dump.begin rfl
    (show followAll host listing _ machine = some begun from rfl)
  have kept : begun.Holds base stack :=
    ((holds.set (by decide) _).next.calculate (by decide) _).next
  have pointer : begun.registers .rbx = slot base 0 := by
    have eight : extended 8 = 8 := by decide
    simp only [begun, registers_next, registers_calculate, registers_set, ↓reduceIte, eight,
      holds.frame]
    rfl
  obtain ⟨later, walked, ended, held, printed, written⟩ :=
    reaches_walk dump format room low kept beginPlace (Nat.zero_le _) pointer
  exact ⟨later, begin.trans walked, ended, held, printed, written⟩

end Machine

end ForthAsm
