import ForthAsm.Proofs.Knowledge

/-!
# Code that finds what it needs

A line of a code is ready if what is known before it is enough to follow it: a jump finds the
stack as deep as its target expects it, and a call finds the arguments and the alignment that
the called routine relies on. If all lines of a code are ready, then what is known at a line is
true whenever the machine stands there, so a run never leaves the code, never breaks the rules
of a call and never stops before the end.

Main statements: `Machine.InCode.of_reaches`, a run stays in the code; and from it
`Machine.StandsAt.keepsCallRules`, `Machine.StandsAt.returns` and `Machine.StandsAt.progress`.
-/

namespace ForthAsm

/-- Whether an operation is always followed, and by the next line. -/
def Operation.isPlain : Operation → Bool
  | .jump _ | .jumpLess _ | .call _ | .systemCall => false
  | _ => true

/-- A plain operation is always followed. -/
theorem Operation.exists_follow {operation : Operation} (plain : operation.isPlain = true)
    (host : Host) (listing : Listing) (machine : Machine) :
    ∃ later, machine.follow host listing operation.statement = some later := by
  cases operation
  all_goals first
    | contradiction
    | exact ⟨_, rfl⟩

/-- A plain operation does not jump. -/
theorem Operation.isStraight_of_isPlain {operation : Operation}
    (plain : operation.isPlain = true) : operation.statement.isStraight = true := by
  cases operation
  all_goals first
    | contradiction
    | rfl

/-- A line of some code finds what it needs. -/
inductive Line.Ready (knowledge : Knowledge) (code : List Line) (index : Nat) : Line → Prop
  /-- An empty line needs nothing. -/
  | blank : Ready knowledge code index .blank
  /-- A label needs nothing. -/
  | label (place : Label) : Ready knowledge code index (.label place)
  /-- A plain operation needs nothing. -/
  | plain {indent : Nat} {content : Operation} (plain : content.isPlain = true) :
      Ready knowledge code index (.operation indent content)
  /-- A jump finds the stack as its target expects it. -/
  | jump {indent place : Nat} {goal : Label} {depth : Int}
      (defined : code[place]? = some (.label goal))
      (expected : (knowledge.before code place).Level depth)
      (found : (knowledge.before code index).Level depth) :
      Ready knowledge code index (.operation indent (.jump goal))
  /-- A jump on a condition finds a comparison as well. -/
  | jumpLess {indent place : Nat} {goal : Label} {depth : Int}
      (defined : code[place]? = some (.label goal))
      (expected : (knowledge.before code place).Level depth)
      (found : (knowledge.before code index).Level depth)
      (compared : (knowledge.before code index).compared = true) :
      Ready knowledge code index (.operation indent (.jumpLess goal))
  /-- A number is printed between the alignment of the stack pointer and its return; before the
  alignment the stack pointer was saved and the arguments were set. -/
  | print {indent earlier : Nat} {depth : Int} (counted : index = earlier + 1)
      (aligns : code[earlier]? = some (.operation margin (.andImmediate (-16) .rsp)))
      (returns : code[earlier + 2]? = some (.operation margin (.move .r12 .rsp)))
      (pointer : (knowledge.before code earlier).registers .rsp = .depth depth)
      (saved : (knowledge.before code earlier).registers .r12 = .depth depth)
      (count : (knowledge.before code earlier).registers .rax = .value 0)
      (format : (knowledge.before code earlier).registers .rdi = .symbol "fmt") :
      Ready knowledge code index (.operation indent (.call .print))
  /-- Everything is written out on an aligned stack and for no particular stream. -/
  | flush {indent : Nat} {depth : Int}
      (pointer : (knowledge.before code index).registers .rsp = .aligned depth)
      (stream : (knowledge.before code index).registers .rdi = .value 0) :
      Ready knowledge code index (.operation indent (.call .flush))
  /-- The process is left with status zero. -/
  | leave {indent : Nat} (service : (knowledge.before code index).registers .rax = .value 60)
      (status : (knowledge.before code index).registers .rdi = .value 0) :
      Ready knowledge code index (.operation indent .systemCall)

namespace Knowledge

/-- All lines of some code find what they need. -/
def AllReady (knowledge : Knowledge) (code : List Line) : Prop :=
  ∀ (index : Nat) (line : Line), code[index]? = some line → line.Ready knowledge code index

variable {knowledge : Knowledge} {first second code : List Line} {index : Nat} {line : Line}

/-- Lines that stand behind others make no difference to these. -/
theorem ready_append_left (ready : line.Ready knowledge first index)
    (inside : index < first.length) : line.Ready knowledge (first ++ second) index := by
  have same : ∀ {place : Nat}, place < first.length →
      knowledge.before (first ++ second) place = knowledge.before first place :=
    fun place => before_append_left (Nat.le_of_lt place) knowledge second
  have there : ∀ {place : Nat} {other : Line}, first[place]? = some other →
      place < first.length ∧ (first ++ second)[place]? = some other := by
    intro place other found
    have early : place < first.length := (List.getElem?_eq_some_iff.mp found).1
    exact ⟨early, by rw [List.getElem?_append_left early, found]⟩
  cases ready with
  | blank => exact .blank
  | label place => exact .label place
  | plain plain => exact .plain plain
  | jump defined expected found =>
    obtain ⟨early, defined⟩ := there defined
    rw [← same early] at expected
    rw [← same inside] at found
    exact .jump defined expected found
  | jumpLess defined expected found compared =>
    obtain ⟨early, defined⟩ := there defined
    rw [← same early] at expected
    rw [← same inside] at found compared
    exact .jumpLess defined expected found compared
  | print counted aligns returns pointer saved count format =>
    obtain ⟨early, aligns⟩ := there aligns
    rw [← same early] at pointer saved count format
    exact .print counted aligns (there returns).2 pointer saved count format
  | flush pointer stream =>
    rw [← same inside] at pointer stream
    exact .flush pointer stream
  | leave service status =>
    rw [← same inside] at service status
    exact .leave service status

/-- Lines that stand before others count only by what is known behind them. -/
theorem ready_append_right (ready : line.Ready (knowledge.through first) second index) :
    line.Ready knowledge (first ++ second) (first.length + index) := by
  have same := before_append_right knowledge first second
  have there : ∀ {place : Nat} {other : Line}, second[place]? = some other →
      (first ++ second)[first.length + place]? = some other := by
    intro place other found
    rw [List.getElem?_append_right (Nat.le_add_right _ _), Nat.add_sub_cancel_left, found]
  cases ready with
  | blank => exact .blank
  | label place => exact .label place
  | plain plain => exact .plain plain
  | jump defined expected found =>
    rw [← same] at expected found
    exact .jump (there defined) expected found
  | jumpLess defined expected found compared =>
    rw [← same] at expected found compared
    exact .jumpLess (there defined) expected found compared
  | print counted aligns returns pointer saved count format =>
    rw [← same] at pointer saved count format
    rw [counted]
    exact .print rfl (there aligns) (there returns) pointer saved count format
  | flush pointer stream =>
    rw [← same] at pointer stream
    exact .flush pointer stream
  | leave service status =>
    rw [← same] at service status
    exact .leave service status

/-- Lines that are ready can be put together. -/
theorem AllReady.append (left : knowledge.AllReady first)
    (right : (knowledge.through first).AllReady second) :
    knowledge.AllReady (first ++ second) := by
  intro index line found
  by_cases early : index < first.length
  · rw [List.getElem?_append_left early] at found
    exact ready_append_left (left index line found) early
  · rw [List.getElem?_append_right (by omega)] at found
    have ready := ready_append_right (right (index - first.length) line found)
    rwa [Nat.add_sub_cancel' (by omega)] at ready

/-- Lines with plain operations are ready. -/
theorem allReady_of_plain {operations : List Operation}
    (plain : operations.all Operation.isPlain = true) (knowledge : Knowledge) :
    knowledge.AllReady (Block.atMargin operations) := by
  intro index line found
  obtain ⟨operation, there, rfl⟩ := List.mem_map.mp (List.mem_of_getElem? found)
  exact .plain (List.all_eq_true.mp plain operation there)

end Knowledge

/-- The statement at a place of some statements that stand in a listing, with those behind. -/
theorem Listing.Has.at {listing : Listing} {start index : Nat} {statements : List Statement}
    {statement : Statement} (has : listing.Has start statements)
    (found : statements[index]? = some statement) :
    listing.Has (start + index) (statement :: statements.drop (index + 1)) := by
  obtain ⟨inside, same⟩ := List.getElem?_eq_some_iff.mp found
  have whole : listing.Has start (statements.take index ++ statements.drop index) := by
    rw [List.take_append_drop]
    exact has
  have later := whole.right
  rwa [List.length_take, Nat.min_eq_left (Nat.le_of_lt inside),
    List.drop_eq_getElem_cons inside, same] at later

/-- The line at a place of a code that stands in a listing. -/
theorem Listing.Has.line {listing : Listing} {start index : Nat} {code : List Line}
    {line : Line} (has : listing.Has start (code.map Line.statement))
    (found : code[index]? = some line) :
    ∃ later, listing.Has (start + index) (line.statement :: later) := by
  have there : (code.map Line.statement)[index]? = some line.statement := by
    rw [List.getElem?_map, found]
    rfl
  exact ⟨_, has.at there⟩

namespace Machine

variable {host : Host} {listing : Listing} {base : UInt64} {knowledge : Knowledge}
  {code : List Line} {start index : Nat} {line : Line} {machine later : Machine}

/-- The machine stands at a line of some code, and what can be relied on there is true. -/
structure StandsAt (host : Host) (base : UInt64) (knowledge : Knowledge) (code : List Line)
    (start index : Nat) (line : Line) (machine : Machine) : Prop where
  /-- The machine stands at the place of the line. -/
  place : machine.place = start + index
  /-- The line stands at its place in the code. -/
  found : code[index]? = some line
  /-- What can be relied on is true. -/
  covers : ((knowledge.before code index).atLine line).Covers host base machine

/-- A line other than a label can rely on all that is known. -/
theorem StandsAt.covers_operation {indent : Nat} {content : Operation}
    (stands : machine.StandsAt host base knowledge code start index (.operation indent content)) :
    (knowledge.before code index).Covers host base machine :=
  stands.covers

/-- What is known behind an operation is true after it was followed. -/
theorem StandsAt.covers_past {indent : Nat} {content : Operation}
    (stands : machine.StandsAt host base knowledge code start index (.operation indent content))
    (followed : machine.follow host listing (Line.operation indent content).statement =
      some later) :
    ((knowledge.before code index).past (.operation indent content)).Covers host base later := by
  have operation : machine.follow host listing content.statement = some later := followed
  exact stands.covers_operation.after operation

/-- The next statement is that of the line. -/
theorem StandsAt.getElem?_statements
    (stands : machine.StandsAt host base knowledge code start index line)
    (has : listing.Has start (code.map Line.statement)) :
    listing.statements[machine.place]? = some line.statement := by
  obtain ⟨later, has⟩ := has.line stands.found
  rw [stands.place]
  exact has.head

/-- The next step follows the statement of the line. -/
theorem StandsAt.step_eq (stands : machine.StandsAt host base knowledge code start index line)
    (has : listing.Has start (code.map Line.statement)) :
    step host listing machine = machine.follow host listing line.statement := by
  rw [step, stands.getElem?_statements has]
  rfl

/-- Before the end of a code that ends with a system call there is another line. -/
theorem exists_next_line {indent : Nat}
    (ends : code.getLast? = some (.operation indent .systemCall))
    (found : code[index]? = some line) (other : ∀ indent, line ≠ .operation indent .systemCall) :
    ∃ next, code[index + 1]? = some next := by
  rw [← Option.isSome_iff_exists, Option.isSome_iff_ne_none, ne_eq, List.getElem?_eq_none_iff]
  intro short
  have inside : index < code.length := (List.getElem?_eq_some_iff.mp found).1
  have last : index = code.length - 1 := by omega
  rw [List.getLast?_eq_getElem?, ← last, found] at ends
  exact other indent (Option.some.inj ends)

/-- A machine that goes on to the next line stands there, and what is known there is true. -/
theorem StandsAt.advance (stands : machine.StandsAt host base knowledge code start index line)
    {next : Line} (found : code[index + 1]? = some next)
    (place : later.place = machine.place + 1)
    (covers : ((knowledge.before code index).past line).Covers host base later) :
    later.StandsAt host base knowledge code start (index + 1) next := by
  refine ⟨?_, found, ?_⟩
  · rw [place, stands.place, Nat.add_assoc]
  · rw [Knowledge.before_succ stands.found]
    exact covers.atLine next

/-- A jump leads to the line of its label, and what can be relied on there is true. -/
theorem StandsAt.land {indent target : Nat} {content : Operation} {goal : Label} {depth : Int}
    (stands : machine.StandsAt host base knowledge code start index (.operation indent content))
    (has : listing.Has start (code.map Line.statement))
    (defined : code[target]? = some (.label goal))
    (expected : (knowledge.before code target).Level depth)
    (found : (knowledge.before code index).Level depth)
    (jumped : machine.goTo listing goal.name = some later) :
    later.StandsAt host base knowledge code start target (.label goal) := by
  obtain ⟨rest, there⟩ := has.line defined
  have placed : listing.place? goal.name = some (start + target) := there.place?
  rw [goTo, placed] at jumped
  rw [← Option.some.inj jumped]
  refine ⟨rfl, defined, ?_⟩
  have covers := stands.covers_operation.pointers
  rw [found.pointers_eq expected] at covers
  exact covers.of_eq rfl rfl

/-- A step leads from a line of the code to the next one or to a label. -/
theorem StandsAt.of_step {last : Nat}
    (stands : machine.StandsAt host base knowledge code start index line)
    (ready : knowledge.AllReady code)
    (ends : code.getLast? = some (.operation last .systemCall))
    (has : listing.Has start (code.map Line.statement))
    (stepped : step host listing machine = some later) :
    ∃ place next, later.StandsAt host base knowledge code start place next ∧
      (place = index + 1 ∨ ∃ goal, next = .label goal) := by
  rw [stands.step_eq has] at stepped
  -- All lines but jumps lead to the next line, and only the last one is a system call.
  have onward : later.place = machine.place + 1 →
      ((knowledge.before code index).past line).Covers host base later →
      (∀ indent, line ≠ .operation indent .systemCall) →
      ∃ place next, later.StandsAt host base knowledge code start place next ∧
        (place = index + 1 ∨ ∃ goal, next = .label goal) := by
    intro place covers other
    obtain ⟨next, found⟩ := exists_next_line ends stands.found other
    exact ⟨index + 1, next, stands.advance found place covers, .inl rfl⟩
  cases ready index line stands.found with
  | blank =>
    have covers : (knowledge.before code index).Covers host base machine := stands.covers
    exact onward (place_of_follow rfl stepped) (covers.next stepped) (by simp)
  | label place =>
    exact onward (place_of_follow rfl stepped) (stands.covers.next stepped) (by simp)
  | plain plain =>
    have other : ∀ {indent content}, Operation.isPlain content = true →
        ∀ margin, Line.operation indent content ≠ .operation margin .systemCall := by
      rintro indent content plain margin same
      cases same
      contradiction
    exact onward (place_of_follow (Operation.isStraight_of_isPlain plain) stepped)
      (stands.covers_past stepped) (other plain)
  | jump defined expected found =>
    exact ⟨_, _, stands.land has defined expected found stepped, .inr ⟨_, rfl⟩⟩
  | jumpLess defined expected found compared =>
    have behind := stands.covers_past stepped
    simp only [Line.statement, Operation.statement, follow, execute] at stepped
    split at stepped
    · exact ⟨_, _, stands.land has defined expected found stepped, .inr ⟨_, rfl⟩⟩
    · refine onward ?_ behind (by simp)
      rw [← Option.some.inj stepped]
      rfl
    · contradiction
  | print counted aligns returns pointer saved count format =>
    exact onward (place_of_call stepped) (stands.covers_past stepped) (by simp)
  | flush pointer stream =>
    exact onward (place_of_call stepped) (stands.covers_past stepped) (by simp)
  | leave service status => contradiction

/-- The machine stands somewhere in some code, and what can be relied on there is true. -/
def InCode (host : Host) (base : UInt64) (knowledge : Knowledge) (code : List Line)
    (start : Nat) (machine : Machine) : Prop :=
  ∃ index line, machine.StandsAt host base knowledge code start index line

/-- A run never leaves a code whose lines all find what they need. -/
theorem InCode.of_reaches {last : Nat} (inCode : machine.InCode host base knowledge code start)
    (ready : knowledge.AllReady code)
    (ends : code.getLast? = some (.operation last .systemCall))
    (has : listing.Has start (code.map Line.statement))
    (reached : Reaches host listing machine later) :
    later.InCode host base knowledge code start := by
  induction reached with
  | refl => exact inCode
  | tail _ stepped ih =>
    obtain ⟨index, line, stands⟩ := ih
    obtain ⟨place, next, stands, -⟩ := stands.of_step ready ends has stepped
    exact ⟨place, next, stands⟩

/-- What a routine relies on is there whenever the machine is about to call it. -/
structure KeepsCallRules (host : Host) (listing : Listing) (machine : Machine) : Prop where
  /-- The stack is aligned. -/
  aligned : ∀ operands,
    listing.statements[machine.place]? = some (.instruction .call operands) →
      machine.registers .rsp % 16 = 0
  /-- Numbers are printed with the format and without vector registers. -/
  print : listing.statements[machine.place]? =
      some (.instruction .call [.symbol "printf"]) →
    machine.registers .rax = 0 ∧ machine.registers .rdi = host.address "fmt"
  /-- Everything is written out for no particular stream. -/
  flush : listing.statements[machine.place]? =
      some (.instruction .call [.symbol "fflush"]) → machine.registers .rdi = 0

/-- Only a call says to call. -/
theorem eq_call_of_statement {operands : List Operand}
    (stated : line.statement = .instruction .call operands) :
    ∃ indent routine, line = .operation indent (.call routine) ∧
      operands = [.symbol routine.name] := by
  cases line with
  | operation indent content =>
    cases content with
    | call routine =>
      cases stated
      exact ⟨indent, routine, rfl, rfl⟩
    | _ => cases stated
  | _ => cases stated

/-- A number is about to be printed: the line before has aligned the stack pointer, the line
behind returns it, and everything is as the routine needs it. -/
structure Prepared (host : Host) (base : UInt64) (knowledge : Knowledge) (code : List Line)
    (earlier : Nat) (depth : Int) (machine : Machine) : Prop where
  /-- The line before aligns the stack pointer. -/
  aligns : code[earlier]? = some (.operation Line.margin (.andImmediate (-16) .rsp))
  /-- The line behind returns it. -/
  returns : code[earlier + 2]? = some (.operation Line.margin (.move .r12 .rsp))
  /-- How deep the stack was before it was aligned. -/
  deep : (knowledge.before code earlier).registers .rsp = .depth depth
  /-- What is known at the call. -/
  known : (knowledge.before code (earlier + 1)).registers .r12 = .depth depth
  /-- The stack pointer is aligned. -/
  pointer : machine.registers .rsp % 16 = 0
  /-- There are no vector registers. -/
  count : machine.registers .rax = 0
  /-- The format is the argument. -/
  format : machine.registers .rdi = host.address "fmt"

/-- Where a number is printed everything is prepared. -/
theorem StandsAt.prepared {indent : Nat}
    (stands : machine.StandsAt host base knowledge code start index
      (.operation indent (.call .print))) (ready : knowledge.AllReady code) :
    ∃ earlier depth, index = earlier + 1 ∧
      machine.Prepared host base knowledge code earlier depth := by
  have covers := stands.covers_operation
  cases ready index _ stands.found with
  | plain plain => contradiction
  | @print _ earlier depth counted aligns returns pointer saved count format =>
    rw [counted, Knowledge.before_succ aligns] at covers
    have stack := covers.registers .rsp
    have vectors := covers.registers .rax
    have argument := covers.registers .rdi
    simp only [Knowledge.past, Knowledge.after, Knowledge.registers_calculate, ↓reduceIte,
      reduceCtorEq, pointer, count, format, Known.cleared, Known.IsOf] at stack vectors argument
    refine ⟨earlier, depth, counted, aligns, returns, pointer, ?_, ?_, vectors, argument⟩
    · rw [Knowledge.before_succ aligns]
      simpa [Knowledge.past, Knowledge.after] using saved
    · rw [stack]
      exact and_mask_mod _

/-- Where everything is written out the stack is aligned and no stream is named. -/
theorem StandsAt.flushes {indent : Nat}
    (stands : machine.StandsAt host base knowledge code start index
      (.operation indent (.call .flush))) (ready : knowledge.AllReady code) :
    machine.registers .rsp % 16 = 0 ∧ machine.registers .rdi = 0 := by
  have covers := stands.covers_operation
  cases ready index _ stands.found with
  | plain plain => contradiction
  | flush pointer stream =>
    have stack := covers.registers .rsp
    have argument := covers.registers .rdi
    rw [pointer] at stack
    rw [stream] at argument
    refine ⟨?_, argument⟩
    rw [show machine.registers .rsp = _ from stack]
    exact and_mask_mod _

/-- In a code whose lines are ready the rules of calls are kept. -/
theorem StandsAt.keepsCallRules
    (stands : machine.StandsAt host base knowledge code start index line)
    (ready : knowledge.AllReady code) (has : listing.Has start (code.map Line.statement)) :
    machine.KeepsCallRules host listing := by
  have stated : ∀ {operands}, listing.statements[machine.place]? =
      some (.instruction .call operands) → line.statement = .instruction .call operands := by
    intro operands called
    rw [stands.getElem?_statements has] at called
    exact Option.some.inj called
  refine ⟨?_, ?_, ?_⟩
  · intro operands called
    obtain ⟨indent, routine, rfl, -⟩ := eq_call_of_statement (stated called)
    cases routine with
    | print =>
      obtain ⟨earlier, depth, -, prepared⟩ := stands.prepared ready
      exact prepared.pointer
    | flush => exact (stands.flushes ready).1
  · intro called
    obtain ⟨indent, routine, rfl, named⟩ := eq_call_of_statement (stated called)
    cases routine with
    | print =>
      obtain ⟨earlier, depth, -, prepared⟩ := stands.prepared ready
      exact ⟨prepared.count, prepared.format⟩
    | flush => simp [Routine.name] at named
  · intro called
    obtain ⟨indent, routine, rfl, named⟩ := eq_call_of_statement (stated called)
    cases routine with
    | print => simp [Routine.name] at named
    | flush => exact (stands.flushes ready).2

/-- A number is printed wherever everything is prepared. -/
theorem Prepared.exists_call {earlier : Nat} {depth : Int}
    (prepared : machine.Prepared host base knowledge code earlier depth)
    (format : listing.HasFormat host) :
    ∃ printed, machine.call host listing "printf" = some printed := by
  have none : (machine.registers .rax).toUInt8 = 0 := by
    rw [prepared.count]
    rfl
  rw [call, if_neg (not_not.mpr prepared.pointer), if_pos rfl, prepared.format,
    if_pos ⟨none, format⟩]
  exact ⟨_, rfl⟩

/-- The stack pointer comes back after a number was printed: it is as it was before it was
aligned for the call. -/
theorem StandsAt.returns {last place indent : Nat} {aligned : Machine}
    (stands : machine.StandsAt host base knowledge code start index line)
    (stepped : step host listing machine = some aligned)
    (calls : aligned.StandsAt host base knowledge code start place
      (.operation indent (.call .print)))
    (ready : knowledge.AllReady code)
    (ends : code.getLast? = some (.operation last .systemCall))
    (has : listing.Has start (code.map Line.statement)) (format : listing.HasFormat host) :
    line = .operation Line.margin (.andImmediate (-16) .rsp) ∧
      ∃ returned restored, step host listing aligned = some returned ∧
        step host listing returned = some restored ∧
        restored.registers .rsp = machine.registers .rsp := by
  obtain ⟨earlier, depth, rfl, prepared⟩ := calls.prepared ready
  -- The call has no label, so it can only be reached from the line before.
  have before : index = earlier := by
    obtain ⟨next, other, stood, reached⟩ := stands.of_step ready ends has stepped
    have same : next = earlier + 1 := by
      have places := stood.place.symm.trans calls.place
      omega
    rcases reached with advanced | ⟨goal, rfl⟩
    · omega
    · have label := stood.found
      rw [same, calls.found] at label
      cases label
  subst before
  have aligns : line = .operation Line.margin (.andImmediate (-16) .rsp) :=
    Option.some.inj (stands.found.symm.trans prepared.aligns)
  subst aligns
  obtain ⟨returned, called⟩ := prepared.exists_call format
  have stepCall : step host listing aligned = some returned := by
    rw [calls.step_eq has]
    exact called
  have back : returned.StandsAt host base knowledge code start (index + 2)
      (.operation Line.margin (.move .r12 .rsp)) :=
    calls.advance prepared.returns (place_of_call called) (calls.covers_past called)
  have saved := back.covers_operation.registers .r12
  rw [Knowledge.before_succ calls.found] at saved
  have kept : ((knowledge.before code (index + 1)).past
      (.operation indent (.call .print))).registers .r12 = .depth depth := prepared.known
  rw [kept] at saved
  have deep := stands.covers_operation.registers .rsp
  rw [prepared.deep] at deep
  refine ⟨rfl, returned, (returned.set .rsp (returned.registers .r12)).next, stepCall, ?_, ?_⟩
  · rw [back.step_eq has]
    rfl
  · rw [registers_next, registers_set, if_pos rfl, show returned.registers .r12 = _ from saved,
      show machine.registers .rsp = _ from deep]

/-- Before the process is left there is always a next step. -/
theorem StandsAt.progress (stands : machine.StandsAt host base knowledge code start index line)
    (ready : knowledge.AllReady code) (has : listing.Has start (code.map Line.statement))
    (format : listing.HasFormat host) :
    machine.Exits listing 0 ∨ ∃ later, step host listing machine = some later := by
  have jumps : ∀ {place : Nat} {goal : Label}, code[place]? = some (.label goal) →
      ∃ later, machine.goTo listing goal.name = some later := by
    intro place goal defined
    obtain ⟨rest, there⟩ := has.line defined
    have placed : listing.place? goal.name = some (start + place) := there.place?
    rw [goTo, placed]
    exact ⟨_, rfl⟩
  rw [stands.step_eq has]
  cases ready index line stands.found with
  | blank => exact .inr ⟨_, rfl⟩
  | label place => exact .inr ⟨_, rfl⟩
  | plain plain => exact .inr (Operation.exists_follow plain host listing machine)
  | jump defined expected found => exact .inr (jumps defined)
  | jumpLess defined expected found compared =>
    right
    have decided := stands.covers_operation.compared compared
    obtain ⟨less, compares⟩ := Option.isSome_iff_exists.mp decided
    simp only [Line.statement, Operation.statement, follow, execute, compares]
    cases less with
    | true => exact jumps defined
    | false => exact ⟨_, rfl⟩
  | print counted aligns returns pointer saved count format =>
    obtain ⟨earlier, depth, -, prepared⟩ := stands.prepared ready
    exact .inr (prepared.exists_call ‹listing.HasFormat host›)
  | flush pointer stream =>
    right
    obtain ⟨aligned, argument⟩ := stands.flushes ready
    change ∃ later, machine.call host listing "fflush" = some later
    rw [call, if_neg (not_not.mpr aligned), if_neg (by decide), if_pos rfl, if_pos argument]
    exact ⟨_, rfl⟩
  | leave service status =>
    left
    have covers := stands.covers_operation
    have number := covers.registers .rax
    have zero := covers.registers .rdi
    rw [service] at number
    rw [status] at zero
    exact ⟨stands.getElem?_statements has, number, zero⟩

end Machine

end ForthAsm
