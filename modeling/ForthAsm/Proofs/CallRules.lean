import ForthAsm.Proofs.Correctness
import ForthAsm.Proofs.Readiness
import Mathlib.Tactic.IntervalCases

/-!
# Compiled programs keep the rules of calls

Every block finds what it needs as soon as the depth of the stack is known, whatever it is, and
makes the stack as much deeper as its instruction declares. So all lines of a compiled program
are ready, and its runs keep the rules of the routines that it calls, also where the stack is
shorter than the instructions expect it to be.

Main statement: `Compilation.calls_keep_rules`.
-/

namespace ForthAsm

/-- The change of the depth of the stack by some instructions. -/
def Instruction.totalDelta (instructions : List Instruction) : Int :=
  (instructions.map fun instruction => instruction.effect.delta).sum

/-- The register that an operation names as its target. -/
def Operation.target? : Operation → Option Register
  | .pop target | .moveWide _ target | .moveImmediate _ target | .move _ target
  | .load _ target | .address _ target | .add _ target | .addImmediate _ target
  | .subtractImmediate _ target | .multiply _ target | .andImmediate _ target
  | .exclusiveOr _ target | .exclusiveOrLow _ target => some target
  | _ => none

/-- Whether a line leaves the frame pointer alone. -/
def Line.keepsFrame : Line → Bool
  | .operation _ content => content.target? != some .rbp
  | _ => true

/-- Whether a line is followed by the next one and needs nothing. -/
def Line.isPlain : Line → Bool
  | .blank | .label _ => true
  | .operation _ content => content.isPlain
  | _ => false

namespace Knowledge

variable {knowledge : Knowledge} {line : Line} {lines : List Line}

/-- A line that leaves the frame pointer alone changes nothing that is known about it. -/
theorem frame_past (keeps : line.keepsFrame = true) (knowledge : Knowledge) :
    (knowledge.past line).registers .rbp = knowledge.registers .rbp := by
  cases line with
  | operation indent content =>
    have other : ∀ target, content.target? = some target → .rbp ≠ target := by
      rintro target names rfl
      simp [Line.keepsFrame, names] at keeps
    cases content with
    | pushImmediate | push | compare | jump | jumpLess | call | systemCall => rfl
    | pop target =>
      simp only [past, after, registers_set, if_neg (other target rfl), reduceCtorEq, ↓reduceIte]
    | _ => exact (registers_set _ _ _ _).trans (if_neg (other _ rfl))
  | _ => rfl

/-- Lines that leave the frame pointer alone change nothing that is known about it. -/
theorem frame_through (keep : lines.all Line.keepsFrame = true) (knowledge : Knowledge) :
    (knowledge.through lines).registers .rbp = knowledge.registers .rbp := by
  induction lines generalizing knowledge with
  | nil => rfl
  | cons line lines ih =>
    rw [List.all_cons, Bool.and_eq_true] at keep
    exact (ih keep.2 (knowledge.past line)).trans (frame_past keep.1 knowledge)

/-- Wherever lines leave the frame pointer alone the same is known about it. -/
theorem frame_before (keep : lines.all Line.keepsFrame = true) (knowledge : Knowledge)
    (index : Nat) :
    (knowledge.before lines index).registers .rbp = knowledge.registers .rbp := by
  apply frame_through
  rw [List.all_eq_true] at keep ⊢
  exact fun line there => keep line (List.mem_of_mem_take there)

/-- What is known about the two pointers of the stack can be relied on at every line. -/
theorem pointers_atLine (knowledge : Knowledge) (line : Line) :
    (knowledge.atLine line).registers .rsp = knowledge.registers .rsp ∧
      (knowledge.atLine line).registers .rbp = knowledge.registers .rbp := by
  cases line with
  | _ => exact ⟨rfl, rfl⟩

/-- An empty line changes nothing that is known. -/
theorem through_blank_cons (knowledge : Knowledge) (lines : List Line) :
    knowledge.through (.blank :: lines) = knowledge.through lines := rfl

/-- A plain line is ready. -/
theorem ready_of_isPlain {code : List Line} {index : Nat} (plain : line.isPlain = true) :
    line.Ready knowledge code index := by
  cases line with
  | blank => exact .blank
  | label place => exact .label place
  | operation indent content => exact .plain plain
  | _ => contradiction

end Knowledge

namespace Block

variable {instruction : Instruction} {block : Block} {knowledge : Knowledge} {depth : Int}

/-- An instruction without a block does not change the depth of the stack. -/
theorem delta_of_none (none : ofInstruction? instruction = none) :
    instruction.effect.delta = 0 := by
  cases instruction with
  | unrecognized text => rfl
  | _ => contradiction

/-- Blocks leave the frame pointer alone. -/
theorem keepsFrame_lines (compiled : ofInstruction? instruction = some block) :
    block.lines.all Line.keepsFrame = true := by
  cases instruction with
  | push value =>
    cases compiled
    unfold pushNumber
    split
    · rfl
    · rfl
  | unrecognized text => contradiction
  | _ =>
    cases compiled
    rfl

/-- A block makes the stack as much deeper as its instruction declares. -/
theorem level_through (compiled : ofInstruction? instruction = some block)
    (level : knowledge.Level depth) :
    (knowledge.through block.lines).Level (depth + instruction.effect.delta) := by
  refine ⟨?_, (Knowledge.frame_through (keepsFrame_lines compiled) knowledge).trans level.frame⟩
  have pointer := level.pointer
  cases instruction with
  | push value =>
    cases compiled
    unfold pushNumber
    split
    · exact congrArg Known.deeper pointer
    · exact congrArg Known.deeper pointer
  | unrecognized text => contradiction
  | _ =>
    cases compiled
    simp [dumpStack, printNumber, atMargin, Knowledge.through, Knowledge.past, Knowledge.after,
      Knowledge.pointers, Knowledge.returned, pointer, Known.deeper, Known.higher,
      Instruction.effect, StackEffect.delta, Int.sub_eq_add_neg, Int.add_assoc]

/-- Only the jumps and the call of a dump are not plain. -/
theorem dumpStack_cases {loop : LoopNumber} {index : Nat} {line : Line}
    (found : (dumpStack loop)[index]? = some line) :
    line.isPlain = true ∨
      (index = 4 ∧ line = .operation Line.margin (.jumpLess (.loopEnd loop))) ∨
      (index = 11 ∧ line = .operation Line.margin (.call .print)) ∨
      (index = 15 ∧ line = .operation Line.margin (.jump (.loopTop loop))) := by
  have inside : index < 17 := (List.getElem?_eq_some_iff.mp found).1
  interval_cases index
  all_goals
    cases found
    simp [Line.isPlain, Operation.isPlain]

/-- A dump finds what it needs at any depth of the stack. -/
theorem allReady_dumpStack (level : knowledge.Level depth) (loop : LoopNumber) :
    knowledge.AllReady (dumpStack loop) := by
  have levelAt : ∀ {index : Nat},
      (knowledge.before (dumpStack loop) index).registers .rsp = .depth depth →
      (knowledge.before (dumpStack loop) index).Level depth := by
    intro index pointer
    exact ⟨pointer, (Knowledge.frame_before rfl knowledge index).trans level.frame⟩
  -- In a turn of the loop the pointer of the walk is pushed and popped.
  have turn : (Known.depth depth).deeper.higher = .depth depth :=
    congrArg Known.depth (Int.add_sub_cancel depth 1)
  have turned : (knowledge.registers .rsp).deeper.higher = .depth depth := by
    rw [level.pointer, turn]
  have pushed : (knowledge.registers .rsp).deeper = .depth (depth + 1) := by
    rw [level.pointer, Known.deeper]
  intro index line found
  rcases dumpStack_cases found with plain | ⟨rfl, rfl⟩ | ⟨rfl, rfl⟩ | ⟨rfl, rfl⟩
  · exact Knowledge.ready_of_isPlain plain
  · have last : (dumpStack loop)[16]? = some (.label (.loopEnd loop)) := rfl
    exact .jumpLess last (levelAt turned) (levelAt level.pointer) rfl
  · have counted : 11 = 10 + 1 := rfl
    exact .print counted rfl rfl pushed pushed rfl rfl
  · have first : (dumpStack loop)[2]? = some (.label (.loopTop loop)) := rfl
    exact .jump first (levelAt level.pointer) (levelAt turned)

/-- A block finds what it needs at any depth of the stack. -/
theorem allReady_lines (compiled : ofInstruction? instruction = some block)
    (level : knowledge.Level depth) : knowledge.AllReady block.lines := by
  cases instruction with
  | push value =>
    cases compiled
    unfold pushNumber
    split
    · exact Knowledge.allReady_of_plain rfl knowledge
    · exact Knowledge.allReady_of_plain rfl knowledge
  | print =>
    cases compiled
    intro index line found
    have popped : (knowledge.registers .rsp).higher = .depth (depth - 1) := by
      rw [level.pointer, Known.higher]
    have inside : index < 7 := (List.getElem?_eq_some_iff.mp found).1
    by_cases call : index = 5
    · subst call
      cases found
      have counted : 5 = 4 + 1 := rfl
      exact .print counted rfl rfl popped popped rfl rfl
    · apply Knowledge.ready_of_isPlain
      interval_cases index
      all_goals first
        | contradiction
        | cases found
          rfl
  | dump loop =>
    cases compiled
    exact allReady_dumpStack level loop
  | unrecognized text => contradiction
  | _ =>
    cases compiled
    exact Knowledge.allReady_of_plain rfl knowledge

end Block

namespace Program

variable {knowledge : Knowledge} {depth : Int}

/-- The lines of a program that are followed from the first block on. -/
def code (instructions : List Instruction) : List Line :=
  blockLines instructions ++ .blank :: closing

/-- What holds of the empty line and of all lines of a block holds of all lines of the
blocks. -/
theorem all_blockLines {check : Line → Bool} (blank : check .blank = true)
    (blocks : ∀ {instruction block}, Block.ofInstruction? instruction = some block →
      block.lines.all check = true) (instructions : List Instruction) :
    (blockLines instructions).all check = true := by
  induction instructions with
  | nil => rfl
  | cons instruction instructions ih =>
    cases compiled : Block.ofInstruction? instruction with
    | none =>
      rw [blockLines_cons_none compiled]
      exact ih
    | some block =>
      rw [blockLines_cons_some compiled, List.all_append, List.all_cons, blank,
        blocks compiled, ih]
      rfl

/-- The code of a program leaves the frame pointer alone. -/
theorem keepsFrame_code (instructions : List Instruction) :
    (code instructions).all Line.keepsFrame = true := by
  rw [code, List.all_append, all_blockLines rfl Block.keepsFrame_lines]
  rfl

/-- The blocks of instructions make the stack as much deeper as the instructions declare. -/
theorem level_through_blockLines (instructions : List Instruction)
    (level : knowledge.Level depth) :
    (knowledge.through (blockLines instructions)).Level
      (depth + Instruction.totalDelta instructions) := by
  induction instructions generalizing knowledge depth with
  | nil =>
    rw [show depth + Instruction.totalDelta [] = depth from Int.add_zero depth]
    exact level
  | cons instruction instructions ih =>
    have total : depth + Instruction.totalDelta (instruction :: instructions) =
        depth + instruction.effect.delta + Instruction.totalDelta instructions := by
      simp only [Instruction.totalDelta, List.map_cons, List.sum_cons]
      omega
    rw [total]
    cases compiled : Block.ofInstruction? instruction with
    | none =>
      rw [blockLines_cons_none compiled, Block.delta_of_none compiled, Int.add_zero]
      exact ih level
    | some block =>
      rw [blockLines_cons_some compiled, Knowledge.through_append,
        Knowledge.through_blank_cons]
      exact ih (Block.level_through compiled level)

/-- The blocks of instructions find what they need at any depth of the stack. -/
theorem allReady_blockLines (instructions : List Instruction) (level : knowledge.Level depth) :
    knowledge.AllReady (blockLines instructions) := by
  induction instructions generalizing knowledge depth with
  | nil =>
    intro index line found
    contradiction
  | cons instruction instructions ih =>
    cases compiled : Block.ofInstruction? instruction with
    | none =>
      rw [blockLines_cons_none compiled]
      exact ih level
    | some block =>
      have blank : knowledge.AllReady [.blank] := by
        intro index line found
        obtain rfl := List.mem_singleton.mp (List.mem_of_getElem? found)
        exact .blank
      have first : knowledge.AllReady ([.blank] ++ block.lines) :=
        blank.append (Block.allReady_lines compiled level)
      rw [blockLines_cons_some compiled]
      refine first.append ?_
      rw [List.singleton_append, Knowledge.through_blank_cons]
      exact ih (Block.level_through compiled level)

/-- The end of a program finds what it needs at any depth of the stack. -/
theorem allReady_closing (level : knowledge.Level depth) :
    knowledge.AllReady (.blank :: closing) := by
  intro index line found
  have aligned : (knowledge.registers .rsp).cleared = .aligned depth := by
    rw [level.pointer, Known.cleared]
  have inside : index < 7 := (List.getElem?_eq_some_iff.mp found).1
  by_cases call : index = 3
  · subst call
    cases found
    exact .flush aligned rfl
  · by_cases last : index = 6
    · subst last
      cases found
      exact .leave rfl rfl
    · apply Knowledge.ready_of_isPlain
      interval_cases index
      all_goals first
        | contradiction
        | cases found
          rfl

/-- The code of a program finds what it needs at any depth of the stack. -/
theorem allReady_code (instructions : List Instruction) (level : knowledge.Level depth) :
    knowledge.AllReady (code instructions) :=
  (allReady_blockLines instructions level).append
    (allReady_closing (level_through_blockLines instructions level))

/-- The code of a program ends with a system call. -/
theorem getLast?_code (instructions : List Instruction) :
    (code instructions).getLast? = some (.operation Line.margin .systemCall) := by
  rw [code, List.getLast?_append]
  rfl

/-- The code of a program begins with an empty line. -/
theorem getElem?_code_zero (instructions : List Instruction) :
    (code instructions)[0]? = some .blank := by
  induction instructions with
  | nil => rfl
  | cons instruction instructions ih =>
    cases compiled : Block.ofInstruction? instruction with
    | none =>
      rw [code, blockLines_cons_none compiled]
      exact ih
    | some block =>
      rw [code, blockLines_cons_some compiled]
      rfl

/-- The entry point of a program and its code stand one after the other. -/
theorem has_code {listing : Listing} {instructions : List Instruction}
    (statements : listing.statements =
      (ofInstructions instructions).lines.map Line.statement ++ [.blank]) :
    listing.Has 9 ((code instructions).map Line.statement) :=
  ⟨opening.map Line.statement, [.blank],
    by simp [statements, lines_ofInstructions, code], rfl⟩

end Program

/-- What is known behind the entry point: the stack begins there. -/
def Knowledge.entry : Knowledge where
  registers := fun register => if register ∈ [.rsp, .rbp] then .depth 0 else .nothing
  compared := false

/-- Behind the entry point nothing is on the stack. -/
theorem Knowledge.level_entry : entry.Level 0 := ⟨rfl, rfl⟩

namespace Machine

variable {host : Host} {listing : Listing} {machine state : Machine}
  {instructions : List Instruction}

/-- The machine behind the entry point, which remembers where the stack begins. -/
def opened (machine : Machine) : Machine :=
  (machine.next.set .rbp (machine.registers .rsp)).next

/-- What is known behind the entry point is true there. -/
theorem covers_opened (host : Host) (machine : Machine) :
    Knowledge.entry.Covers host (machine.registers .rsp) machine.opened := by
  refine ⟨?_, by simp [Knowledge.entry]⟩
  intro register
  cases register
  case rsp | rbp => exact (below_zero _).symm
  all_goals trivial

/-- If the next state is about to print a number, then this one aligns the stack pointer, and
it is as it was here once the number is printed and one more line is followed. -/
def RestoresPointer (host : Host) (listing : Listing) (machine : Machine) : Prop :=
  ∀ aligned, step host listing machine = some aligned →
    listing.statements[aligned.place]? = some (.instruction .call [.symbol "printf"]) →
    listing.statements[machine.place]? =
        some (.instruction .and [.immediate (-16), .register .rsp]) ∧
      ∃ returned restored, step host listing aligned = some returned ∧
        step host listing returned = some restored ∧
        restored.registers .rsp = machine.registers .rsp

/-- Where neither this line nor the next one is a call there are no rules to break. -/
theorem keepsCallRules_of_ne_call {statement following : Statement} {later : Machine}
    (here : listing.statements[machine.place]? = some statement)
    (stepped : step host listing machine = some later)
    (there : listing.statements[later.place]? = some following)
    (other : ∀ operands, statement ≠ .instruction .call operands ∧
      following ≠ .instruction .call operands) :
    machine.KeepsCallRules host listing ∧ machine.RestoresPointer host listing := by
  have noCall : ∀ operands,
      listing.statements[machine.place]? ≠ some (.instruction .call operands) := by
    intro operands called
    rw [here] at called
    exact (other operands).1 (Option.some.inj called)
  refine ⟨⟨?_, ?_, ?_⟩, ?_⟩
  · exact fun operands called => absurd called (noCall operands)
  · exact fun called => absurd called (noCall _)
  · exact fun called => absurd called (noCall _)
  · intro aligned moved called
    obtain rfl := Option.some.inj (stepped.symm.trans moved)
    rw [there] at called
    exact absurd (Option.some.inj called) (other _).2

/-- The entry point of a program stands where the machine is, with its code behind it. -/
structure Entering (listing : Listing) (instructions : List Instruction) (machine : Machine) :
    Prop where
  /-- The machine stands at the entry point. -/
  place : machine.place = 7
  /-- The entry point. -/
  entry : listing.Has 7 [.label "_start", (Operation.move .rsp .rbp).statement]
  /-- The code. -/
  code : listing.Has 9 ((Program.code instructions).map Line.statement)

namespace Entering

variable (entering : machine.Entering listing instructions)
include entering

/-- The first step passes the label of the entry point. -/
theorem step_first (host : Host) : step host listing machine = some machine.next := by
  rw [step, entering.place, entering.entry.head]
  rfl

/-- The next line lets the frame pointer remember where the stack begins. -/
theorem statement_next : listing.statements[machine.next.place]? =
    some (Operation.move .rsp .rbp).statement := by
  rw [show machine.next.place = 7 + 1 from congrArg (· + 1) entering.place]
  exact entering.entry.tail.head

/-- The second step leads behind the entry point. -/
theorem step_second (host : Host) : step host listing machine.next = some machine.opened := by
  rw [step, entering.statement_next]
  rfl

/-- The entry point leads to the code. -/
theorem reaches_opened (host : Host) : Reaches host listing machine machine.opened :=
  Relation.ReflTransGen.head (entering.step_first host)
    (Relation.ReflTransGen.single (entering.step_second host))

/-- The first two steps lead through the entry point. -/
theorem reaches_cases (reached : Reaches host listing machine state) :
    state = machine ∨ state = machine.next ∨ Reaches host listing machine.opened state := by
  rcases reached.cases_head with rfl | ⟨between, begun, reached⟩
  · exact .inl rfl
  · obtain rfl := Option.some.inj ((entering.step_first host).symm.trans begun)
    rcases reached.cases_head with rfl | ⟨between, continued, reached⟩
    · exact .inr (.inl rfl)
    · obtain rfl := Option.some.inj ((entering.step_second host).symm.trans continued)
      exact .inr (.inr reached)

/-- Behind the entry point the machine stands at the first line of the code. -/
theorem standsAt_opened (host : Host) :
    machine.opened.StandsAt host (machine.registers .rsp) Knowledge.entry
      (Program.code instructions) 9 0 .blank :=
  ⟨congrArg (· + 2) entering.place, Program.getElem?_code_zero instructions,
    covers_opened host machine⟩

/-- Behind the entry point a run stays in the code. -/
theorem inCode_of_reaches (reached : Reaches host listing machine.opened state) :
    state.InCode host (machine.registers .rsp) Knowledge.entry (Program.code instructions) 9 := by
  have begins : machine.opened.InCode host (machine.registers .rsp) Knowledge.entry
      (Program.code instructions) 9 := ⟨0, .blank, entering.standsAt_opened host⟩
  exact begins.of_reaches (Program.allReady_code instructions Knowledge.level_entry)
    (Program.getLast?_code instructions) entering.code reached

/-- At the entry point no routine is called. -/
theorem keepsCallRules (host : Host) :
    (machine.KeepsCallRules host listing ∧ machine.RestoresPointer host listing) ∧
      machine.next.KeepsCallRules host listing ∧ machine.next.RestoresPointer host listing := by
  have here : listing.statements[machine.place]? = some (.label "_start") := by
    rw [entering.place]
    exact entering.entry.head
  have behind : listing.statements[machine.opened.place]? = some .blank :=
    (entering.standsAt_opened host).getElem?_statements entering.code
  exact ⟨keepsCallRules_of_ne_call here (entering.step_first host) entering.statement_next
      fun _ => ⟨nofun, nofun⟩,
    keepsCallRules_of_ne_call entering.statement_next (entering.step_second host) behind
      fun _ => ⟨nofun, nofun⟩⟩

end Entering

/-- Behind the entry point the frame pointer is where the stack began. -/
theorem StandsAt.frame_eq {base : UInt64} {start index : Nat} {line : Line}
    (stands : machine.StandsAt host base Knowledge.entry (Program.code instructions) start index
      line) : machine.registers .rbp = base := by
  have known := Knowledge.frame_before (Program.keepsFrame_code instructions) Knowledge.entry index
  have covers := stands.covers.registers .rbp
  rw [(Knowledge.pointers_atLine _ line).2, known] at covers
  exact covers.trans (below_zero base)

/-- In the code of a program the stack pointer comes back after a number was printed. -/
theorem StandsAt.restoresPointer {base : UInt64} {start index : Nat} {line : Line}
    (stands : machine.StandsAt host base Knowledge.entry (Program.code instructions) start index
      line)
    (has : listing.Has start ((Program.code instructions).map Line.statement))
    (format : listing.HasFormat host) : machine.RestoresPointer host listing := by
  intro aligned stepped called
  have ready := Program.allReady_code instructions Knowledge.level_entry
  have ends := Program.getLast?_code instructions
  obtain ⟨place, next, calls, -⟩ := stands.of_step ready ends has stepped
  rw [calls.getElem?_statements has] at called
  obtain ⟨indent, routine, rfl, named⟩ := eq_call_of_statement (Option.some.inj called)
  have print : routine = .print := by
    cases routine with
    | print => rfl
    | flush => simp [Routine.name] at named
  subst print
  obtain ⟨rfl, restored⟩ := stands.returns stepped calls ready ends has format
  exact ⟨stands.getElem?_statements has, restored⟩

end Machine

namespace Compilation

/-- Whatever words are compiled, and however deep the stack is, a run of the program never
breaks the rules of calls: whenever a routine is called the stack pointer is aligned and the
arguments are those that it relies on, the stack pointer comes back after a number was printed,
behind the entry point the frame pointer is where the stack began, and until the process is left
there is a next step. -/
theorem calls_keep_rules {words : List Word} {compilation : Compilation}
    (compiled : (ofWords words).outcome = .ok compilation)
    (few : Word.dumps words < UInt32.size) :
    ∃ listing start, Listing.ofText? compilation.assembly = some listing ∧
      listing.place? "_start" = some start ∧
      ∀ (host : Host) (machine state : Machine), machine.place = start →
        Machine.Reaches host listing machine state →
        state.KeepsCallRules host listing ∧ state.RestoresPointer host listing ∧
          (state = machine ∨ state = machine.next ∨
            state.registers .rbp = machine.registers .rsp) ∧
          (state.Exits listing 0 ∨ ∃ later, Machine.step host listing state = some later) := by
  obtain ⟨_, rfl⟩ := (outcome_ofWords_eq_ok_iff words compilation).mp compiled
  obtain ⟨listing, read, statements⟩ := Program.ofText?_text few
  obtain ⟨entry, _, _⟩ := Program.has_parts statements
  refine ⟨listing, 7, read, entry.place?, ?_⟩
  intro host machine state place reached
  have entering : machine.Entering listing (Instruction.sequence 0 words) :=
    ⟨place, entry, Program.has_code statements⟩
  obtain ⟨first, second⟩ := entering.keepsCallRules host
  rcases entering.reaches_cases reached with rfl | rfl | reached
  · exact ⟨first.1, first.2, .inl rfl, .inr ⟨_, entering.step_first host⟩⟩
  · exact ⟨second.1, second.2, .inr (.inl rfl), .inr ⟨_, entering.step_second host⟩⟩
  · have format := Program.hasFormat statements host
    have ready := Program.allReady_code (Instruction.sequence 0 words) Knowledge.level_entry
    obtain ⟨index, line, stands⟩ := entering.inCode_of_reaches reached
    exact ⟨stands.keepsCallRules ready entering.code,
      stands.restoresPointer entering.code format, .inr (.inr stands.frame_eq),
      stands.progress ready entering.code format⟩

/-- Printing from an empty stack, and looking at it afterwards. -/
def shortWords : List Word :=
  [⟨".", ⟨1, 1⟩⟩, ⟨".s", ⟨1, 3⟩⟩]

/-- Words that find the stack too short and a stack that begins at 4096: the machine comes to
the call with a stack pointer above that, and the rules are kept. -/
theorem calls_keep_rules_short :
    ∃ listing start state, Listing.ofText? (ofFitting shortWords).assembly = some listing ∧
      listing.place? "_start" = some start ∧
      Machine.Reaches Host.careless listing (Machine.launched start 4096) state ∧
      listing.statements[state.place]? = some (.instruction .call [.symbol "printf"]) ∧
      state.registers .r12 = 4104 ∧ state.registers .rsp % 16 = 0 ∧
      state.registers .rax = 0 ∧ state.registers .rdi = 8192 ∧ state.registers .rbp = 4096 := by
  have compiled : (ofWords shortWords).outcome = .ok (ofFitting shortWords) := by
    rw [outcome_ofWords_eq_ok_iff]
    exact ⟨by decide, rfl⟩
  have few : Word.dumps shortWords < UInt32.size := by decide
  obtain ⟨listing, start, read, placed, runs⟩ := calls_keep_rules compiled few
  obtain ⟨same, again, statements⟩ := Program.ofText?_text few
  obtain rfl : listing = same := Option.some.inj (read.symm.trans again)
  have sequence : Instruction.sequence 0 shortWords = [.print, .dump ⟨0⟩] := by decide
  rw [sequence] at statements
  obtain ⟨entry, _, _⟩ := Program.has_parts statements
  obtain rfl : start = 7 := Option.some.inj (placed.symm.trans entry.place?)
  have entering : (Machine.launched 7 4096).Entering listing [.print, .dump ⟨0⟩] :=
    ⟨rfl, entry, Program.has_code statements⟩
  -- The lines before the call are followed one after the other.
  have part : listing.Has (Machine.launched 7 4096).opened.place _ :=
    entering.code.slice (Nat.zero_le _) 6
  obtain ⟨reached, -⟩ := Machine.reaches_of_followAll part rfl
    (show Machine.followAll Host.careless listing _ _ = some _ from rfl)
  have whole := (entering.reaches_opened Host.careless).trans reached
  have called := (entering.code.slice (show 6 ≤ _ by decide) 1).head
  obtain ⟨rules, -, frame, -⟩ := runs Host.careless _ _ rfl whole
  refine ⟨listing, 7, _, read, placed, whole, called, rfl, rules.aligned _ called, ?_, ?_, ?_⟩
  · exact (rules.print called).1
  · exact (rules.print called).2
  · rcases frame with same | same | frame
    · cases congrArg Machine.place same
    · cases congrArg Machine.place same
    · exact frame

end Compilation

end ForthAsm
