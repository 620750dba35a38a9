import ForthAsm.Proofs.Interpreter
import ForthAsm.Proofs.StackWalk

/-!
# Blocks do what their instructions mean

A machine mirrors a session if it holds the stack of the session in its memory and holds back
the numbers that the session has printed. Every block carries this on: from a machine that
mirrors a session it leads, behind its last line, to one that mirrors the session after the
instruction.

Main statement: `Machine.Mirrors.carries_block`.
-/

namespace ForthAsm

/-- A value that is small enough is not changed by extending its sign. -/
theorem extended_of_le {value : UInt64} (small : value.toNat ≤ Block.largestImmediate) :
    extended value.toNat = value := by
  have bound : value.toNat < 2 ^ 31 := Nat.lt_succ_of_le small
  have positive : (BitVec.ofNat 32 value.toNat).msb = false := by
    rw [BitVec.msb_eq_false_iff_two_mul_lt, BitVec.toNat_ofNat]
    omega
  rw [extended, BitVec.ofInt_natCast, BitVec.signExtend_eq_setWidth_of_msb_false positive]
  apply UInt64.toNat_inj.mp
  change ((BitVec.ofNat 32 value.toNat).setWidth 64).toNat = _
  rw [BitVec.toNat_setWidth, BitVec.toNat_ofNat]
  omega

/-- A value of 64 bits is the word of its number. -/
theorem wide_toNat (value : UInt64) : wide value.toNat = value := by
  rw [wide, BitVec.ofInt_natCast]
  apply UInt64.toNat_inj.mp
  change (BitVec.ofNat 64 value.toNat).toNat = _
  rw [BitVec.toNat_ofNat]
  exact Nat.mod_eq_of_lt value.toNat_lt

/-- Lines at the margin say what their operations say. -/
theorem Block.map_statement_atMargin (operations : List Operation) :
    (atMargin operations).map Line.statement = operations.map Operation.statement := by
  rw [atMargin, List.map_map]
  rfl

namespace Machine

/-- The machine holds the stack of the session, and its numbers are held back. -/
structure Mirrors (base : UInt64) (session : Session) (machine : Machine) : Prop where
  /-- The stack is in memory. -/
  stack : machine.Holds base session.stack
  /-- The printed numbers are held back. -/
  held : machine.held = session.printed
  /-- Nothing was written out yet. -/
  written : machine.written = []

/-- The machine comes to the end of some lines and mirrors the session then. -/
def Carries (host : Host) (listing : Listing) (base : UInt64) (machine : Machine)
    (lines : List Line) (session : Session) : Prop :=
  ∃ later, Reaches host listing machine later ∧ later.place = machine.place + lines.length ∧
    later.Mirrors base session

variable {host : Host} {listing : Listing} {machine later : Machine} {base : UInt64}
  {session after : Session} {operations : List Operation}

/-- Code without jumps that leads to the new stack and prints nothing. -/
theorem Mirrors.carries (mirrors : machine.Mirrors base session)
    (has : listing.Has machine.place ((Block.atMargin operations).map Line.statement))
    (straight : (operations.map Operation.statement).all Statement.isStraight = true)
    (followed : followAll host listing (operations.map Operation.statement) machine = some later)
    (silent : later.held = machine.held ∧ later.written = machine.written)
    {stack : List UInt64} (holds : later.Holds base stack) :
    machine.Carries host listing base (Block.atMargin operations) ⟨stack, session.printed⟩ := by
  rw [Block.map_statement_atMargin] at has
  obtain ⟨reached, place⟩ := reaches_of_followAll has straight followed
  refine ⟨later, reached, ?_, holds, ?_, ?_⟩
  · simpa [Block.atMargin] using place
  · exact silent.1.trans mirrors.held
  · exact silent.2.trans mirrors.written

/-- The code of a number pushes it, at once or through a register. -/
theorem Mirrors.carries_push (mirrors : machine.Mirrors base session) {value : UInt64}
    (has : listing.Has machine.place
      ((Block.atMargin (Block.pushNumber value)).map Line.statement))
    (room : 8 * (session.stack.length + 1) ≤ base.toNat) :
    machine.Carries host listing base (Block.atMargin (Block.pushNumber value))
      ⟨value :: session.stack, session.printed⟩ := by
  unfold Block.pushNumber at has ⊢
  split at has
  · rename_i small
    rw [if_pos small]
    have followed : followAll host listing
        ([Operation.pushImmediate value.toNat].map Operation.statement) machine =
          some (machine.push value).next := by
      change some (machine.push (extended value.toNat)).next = _
      rw [extended_of_le small]
    exact mirrors.carries has rfl followed ⟨rfl, rfl⟩ (mirrors.stack.push room value).next
  · rename_i large
    rw [if_neg large]
    have followed : followAll host listing
        ([Operation.moveWide value.toNat .rax, .push .rax].map Operation.statement) machine =
          some ((machine.set .rax value).next.push value).next := by
      change some ((machine.set .rax (wide value.toNat)).next.push (wide value.toNat)).next = _
      rw [wide_toNat]
    have kept : (machine.set .rax value).next.Holds base session.stack :=
      (mirrors.stack.set (by decide) value).next
    exact mirrors.carries has rfl followed ⟨rfl, rfl⟩ (kept.push room value).next

variable {top second : UInt64} {rest : List UInt64}

/-- The code of `dup` copies the top. -/
theorem Mirrors.carries_duplicate (mirrors : machine.Mirrors base session)
    (shape : session.stack = top :: rest)
    (has : listing.Has machine.place
      ((Block.atMargin [.pop .rax, .push .rax, .push .rax]).map Line.statement))
    (room : 8 * (rest.length + 2) ≤ base.toNat) :
    machine.Carries host listing base (Block.atMargin [.pop .rax, .push .rax, .push .rax])
      ⟨top :: top :: rest, session.printed⟩ := by
  have whole := mirrors.stack
  rw [shape] at whole
  have popped : (machine.pop .rax).next.Holds base rest := (whole.pop (by decide)).next
  have once := (popped.push (by omega) top).next
  have twice := (once.push room top).next
  have followed : followAll host listing
      ([Operation.pop .rax, .push .rax, .push .rax].map Operation.statement) machine =
        some (((machine.pop .rax).next.push top).next.push top).next := by
    rw [← whole.top]
    rfl
  exact mirrors.carries has rfl followed ⟨rfl, rfl⟩ twice

/-- Code that pops the two topmost words into registers and works on from there. -/
theorem Mirrors.carries_two (mirrors : machine.Mirrors base session)
    (shape : session.stack = top :: second :: rest) {first other : Register}
    (freeFirst : first ≠ .rbp ∧ first ≠ .rsp) (freeOther : other ≠ .rbp ∧ other ≠ .rsp)
    (apart : first ≠ other)
    (has : listing.Has machine.place
      ((Block.atMargin (.pop first :: .pop other :: operations)).map Line.statement))
    (straight : (operations.map Operation.statement).all Statement.isStraight = true)
    {stack : List UInt64}
    (works : ∀ popped : Machine, popped.Holds base rest → popped.registers first = top →
      popped.registers other = second → ∃ later,
        followAll host listing (operations.map Operation.statement) popped = some later ∧
          later.held = popped.held ∧ later.written = popped.written ∧
          later.Holds base stack) :
    machine.Carries host listing base (Block.atMargin (.pop first :: .pop other :: operations))
      ⟨stack, session.printed⟩ := by
  have whole := mirrors.stack
  rw [shape] at whole
  have below : (machine.pop first).next.Holds base (second :: rest) := (whole.pop freeFirst).next
  have popped : ((machine.pop first).next.pop other).next.Holds base rest :=
    (below.pop freeOther).next
  obtain ⟨later, followed, held, written, holds⟩ :=
    works _ popped (by simp [apart, freeFirst.2, whole.top]) (by simp [below.top])
  exact mirrors.carries has straight followed ⟨held, written⟩ holds

/-- The code of `*` multiplies the two topmost words. -/
theorem Mirrors.carries_multiply (mirrors : machine.Mirrors base session)
    (shape : session.stack = top :: second :: rest)
    (has : listing.Has machine.place ((Block.atMargin
      [.pop .rbx, .pop .rcx, .multiply .rbx .rcx, .push .rcx]).map Line.statement))
    (room : 8 * (rest.length + 1) ≤ base.toNat) :
    machine.Carries host listing base
      (Block.atMargin [.pop .rbx, .pop .rcx, .multiply .rbx .rcx, .push .rcx])
      ⟨(second * top) :: rest, session.printed⟩ := by
  apply mirrors.carries_two shape (by decide) (by decide) (by decide) has rfl
  intro popped holds first other
  refine ⟨((popped.calculate .rcx (second * top)).next.push (second * top)).next, ?_, rfl, rfl, ?_⟩
  · rw [← first, ← other]
    rfl
  · exact ((holds.calculate (by decide) _).next.push room _).next

/-- The code of `+` adds the two topmost words. -/
theorem Mirrors.carries_add (mirrors : machine.Mirrors base session)
    (shape : session.stack = top :: second :: rest)
    (has : listing.Has machine.place ((Block.atMargin
      [.pop .rbx, .pop .rax, .add .rbx .rax, .push .rax]).map Line.statement))
    (room : 8 * (rest.length + 1) ≤ base.toNat) :
    machine.Carries host listing base
      (Block.atMargin [.pop .rbx, .pop .rax, .add .rbx .rax, .push .rax])
      ⟨(second + top) :: rest, session.printed⟩ := by
  apply mirrors.carries_two shape (by decide) (by decide) (by decide) has rfl
  intro popped holds first other
  refine ⟨((popped.calculate .rax (second + top)).next.push (second + top)).next, ?_, rfl, rfl, ?_⟩
  · rw [← first, ← other]
    rfl
  · exact ((holds.calculate (by decide) _).next.push room _).next

/-- The code of `swap` exchanges the two topmost words. -/
theorem Mirrors.carries_swap (mirrors : machine.Mirrors base session)
    (shape : session.stack = top :: second :: rest)
    (has : listing.Has machine.place ((Block.atMargin
      [.pop .rax, .pop .rbx, .push .rax, .push .rbx]).map Line.statement))
    (room : 8 * (rest.length + 2) ≤ base.toNat) :
    machine.Carries host listing base
      (Block.atMargin [.pop .rax, .pop .rbx, .push .rax, .push .rbx])
      ⟨second :: top :: rest, session.printed⟩ := by
  apply mirrors.carries_two shape (by decide) (by decide) (by decide) has rfl
  intro popped holds first other
  refine ⟨((popped.push top).next.push second).next, ?_, rfl, rfl, ?_⟩
  · rw [← first, ← other]
    rfl
  · exact ((holds.push (by omega) top).next.push room second).next

/-- The code of `tuck` copies the top below the two topmost words. -/
theorem Mirrors.carries_tuck (mirrors : machine.Mirrors base session)
    (shape : session.stack = top :: second :: rest)
    (has : listing.Has machine.place ((Block.atMargin
      [.pop .rax, .pop .rbx, .push .rax, .push .rbx, .push .rax]).map Line.statement))
    (room : 8 * (rest.length + 3) ≤ base.toNat) :
    machine.Carries host listing base
      (Block.atMargin [.pop .rax, .pop .rbx, .push .rax, .push .rbx, .push .rax])
      ⟨top :: second :: top :: rest, session.printed⟩ := by
  apply mirrors.carries_two shape (by decide) (by decide) (by decide) has rfl
  intro popped holds first other
  refine ⟨(((popped.push top).next.push second).next.push top).next, ?_, rfl, rfl, ?_⟩
  · rw [← first, ← other]
    rfl
  · have once := (holds.push (by omega) top).next
    have twice := (once.push (by rw [List.length_cons]; omega) second).next
    exact (twice.push room top).next

/-- The code of `nip` drops the word below the top. -/
theorem Mirrors.carries_nip (mirrors : machine.Mirrors base session)
    (shape : session.stack = top :: second :: rest)
    (has : listing.Has machine.place
      ((Block.atMargin [.pop .rax, .addImmediate 8 .rsp, .push .rax]).map Line.statement))
    (room : 8 * (rest.length + 1) ≤ base.toNat) :
    machine.Carries host listing base
      (Block.atMargin [.pop .rax, .addImmediate 8 .rsp, .push .rax])
      ⟨top :: rest, session.printed⟩ := by
  have whole := mirrors.stack
  rw [shape] at whole
  have popped : (machine.pop .rax).next.Holds base (second :: rest) :=
    (whole.pop (by decide)).next
  have followed : followAll host listing
      ([Operation.pop .rax, .addImmediate 8 .rsp, .push .rax].map Operation.statement) machine =
        some (((machine.pop .rax).next.calculate .rsp
          ((machine.pop .rax).next.registers .rsp + 8)).next.push top).next := by
    rw [← whole.top]
    rfl
  exact mirrors.carries has rfl followed ⟨rfl, rfl⟩ (popped.drop.next.push room top).next

/-- The code of `.` prints the top and takes it away. -/
theorem Mirrors.carries_print (mirrors : machine.Mirrors base session)
    (shape : session.stack = top :: rest)
    (has : listing.Has machine.place
      ((Block.atMargin (.pop .rsi :: Block.printNumber)).map Line.statement))
    (format : listing.HasFormat host)
    (room : 8 * rest.length ≤ base.toNat) :
    machine.Carries host listing base (Block.atMargin (.pop .rsi :: Block.printNumber))
      ⟨rest, session.printed ++ [top.toInt64.toInt]⟩ := by
  rw [Block.map_statement_atMargin] at has
  have whole := mirrors.stack
  rw [shape] at whole
  have popped : (machine.pop .rsi).next.Holds base rest := (whole.pop (by decide)).next
  have taken : step host listing machine = some (machine.pop .rsi).next := by
    rw [step, has.head]
    rfl
  have printing : listing.Has (machine.pop .rsi).next.place
      (Block.printNumber.map Operation.statement) := has.tail
  obtain ⟨later, printed, place, prints⟩ := reaches_printNumber printing format
  have argument : (machine.pop .rsi).next.registers .rsi = top := by simp [whole.top]
  refine ⟨later, Relation.ReflTransGen.head taken printed, ?_, prints.holds popped room, ?_, ?_⟩
  · rw [place]
    rfl
  · rw [prints.held, argument]
    exact congrArg (· ++ _) mirrors.held
  · exact prints.written.trans mirrors.written

/-- The code of `.s` prints the whole stack. -/
theorem Mirrors.carries_dump (mirrors : machine.Mirrors base session) {loop : LoopNumber}
    (has : listing.Has machine.place ((Block.dumpStack loop).map Line.statement))
    (format : listing.HasFormat host)
    (room : 8 * (session.stack.length + 1) ≤ base.toNat) (low : 0 ≤ base.toInt64.toInt) :
    machine.Carries host listing base (Block.dumpStack loop) session.dump := by
  obtain ⟨later, reached, place, holds, held, written⟩ :=
    reaches_dumpStack has format room low mirrors.stack
  refine ⟨later, reached, place, holds, ?_, written.trans mirrors.written⟩
  rw [held, mirrors.held]
  rfl

/-- A block does on the machine what its instruction does to the session. -/
theorem Mirrors.carries_block (mirrors : machine.Mirrors base session)
    {instruction : Instruction} {block : Block}
    (compiled : Block.ofInstruction? instruction = some block)
    (has : listing.Has machine.place (block.lines.map Line.statement))
    (format : listing.HasFormat host)
    (acted : session.act instruction = some after) (low : 0 ≤ base.toInt64.toInt)
    (room : 8 * (session.stack.length + 1) ≤ base.toNat)
    (space : 8 * (after.stack.length + 1) ≤ base.toNat) :
    machine.Carries host listing base block.lines after := by
  cases instruction with
  | push value =>
    cases compiled
    cases acted
    exact mirrors.carries_push has room
  | duplicate =>
    cases compiled
    obtain ⟨top, rest, shape, rfl⟩ := Session.replaceOne_eq_some acted
    have long : 8 * (rest.length + 3) ≤ base.toNat := space
    have enough : 8 * (rest.length + 2) ≤ base.toNat := by omega
    exact mirrors.carries_duplicate shape has enough
  | multiply =>
    cases compiled
    obtain ⟨top, second, rest, shape, rfl⟩ := Session.replaceTwo_eq_some acted
    have long : 8 * (rest.length + 2) ≤ base.toNat := space
    have enough : 8 * (rest.length + 1) ≤ base.toNat := by omega
    exact mirrors.carries_multiply shape has enough
  | print =>
    cases compiled
    obtain ⟨top, rest, shape, rfl⟩ := Session.print_eq_some acted
    have long : 8 * (rest.length + 1) ≤ base.toNat := space
    have enough : 8 * rest.length ≤ base.toNat := by omega
    exact mirrors.carries_print shape has format enough
  | add =>
    cases compiled
    obtain ⟨top, second, rest, shape, rfl⟩ := Session.replaceTwo_eq_some acted
    have long : 8 * (rest.length + 2) ≤ base.toNat := space
    have enough : 8 * (rest.length + 1) ≤ base.toNat := by omega
    exact mirrors.carries_add shape has enough
  | swap =>
    cases compiled
    obtain ⟨top, second, rest, shape, rfl⟩ := Session.replaceTwo_eq_some acted
    have long : 8 * (rest.length + 3) ≤ base.toNat := space
    have enough : 8 * (rest.length + 2) ≤ base.toNat := by omega
    exact mirrors.carries_swap shape has enough
  | nip =>
    cases compiled
    obtain ⟨top, second, rest, shape, rfl⟩ := Session.replaceTwo_eq_some acted
    have long : 8 * (rest.length + 2) ≤ base.toNat := space
    have enough : 8 * (rest.length + 1) ≤ base.toNat := by omega
    exact mirrors.carries_nip shape has enough
  | tuck =>
    cases compiled
    obtain ⟨top, second, rest, shape, rfl⟩ := Session.replaceTwo_eq_some acted
    have long : 8 * (rest.length + 4) ≤ base.toNat := space
    have enough : 8 * (rest.length + 3) ≤ base.toNat := by omega
    exact mirrors.carries_tuck shape has enough
  | dump loop =>
    cases compiled
    cases acted
    exact mirrors.carries_dump has format room low
  | unrecognized text => contradiction

end Machine

end ForthAsm
