import ForthAsm.Proofs.Labels
import ForthAsm.Proofs.Simulation

/-!
# Compiled programs print what their words ask for

The running depth of some instructions is the sum of their declared effects. If no instruction
takes more words than there are, the interpreter gets through all words, and the program that
they are compiled to does the same: its text is accepted by an assembler, it runs from its
entry point to the exit of the process, and all numbers are written out by then.

The stack of the process has to lie where its addresses do not look negative, and one word
below its deepest point has to be free as well, because the walk over the stack needs it.

Main statement: `Compilation.exits_with_interpreted_output`.
-/

namespace ForthAsm

namespace Instruction

/-- From a depth on, every instruction finds as many words as it takes. -/
def NeverShort (depth : Int) : List Instruction → Prop
  | [] => True
  | instruction :: instructions =>
    instruction.effect.pops.toNat ≤ depth ∧
      NeverShort (depth + instruction.effect.delta) instructions

/-- Whether instructions always find enough words can be decided by going through them. -/
instance decidableNeverShort (depth : Int) :
    (instructions : List Instruction) → Decidable (NeverShort depth instructions)
  | [] => inferInstanceAs (Decidable True)
  | instruction :: instructions =>
    have := decidableNeverShort (depth + instruction.effect.delta) instructions
    inferInstanceAs (Decidable (_ ∧ _))

/-- The depths that instructions go through from a depth on, the first one first. -/
def depths (depth : Int) : List Instruction → List Int
  | [] => [depth]
  | instruction :: instructions =>
    depth :: depths (depth + instruction.effect.delta) instructions

/-- The first depth is the one before all instructions. -/
theorem mem_depths (depth : Int) (instructions : List Instruction) :
    depth ∈ depths depth instructions := by
  cases instructions with
  | nil => exact List.mem_singleton_self depth
  | cons instruction instructions => exact List.mem_cons_self

/-- Below an address there is room for a word more than some instructions need, and nowhere in
it does an address look negative. -/
structure HasRoom (base : UInt64) (instructions : List Instruction) : Prop where
  /-- The stack begins at an address that does not look negative. -/
  low : 0 ≤ base.toInt64.toInt
  /-- At every depth one more word fits above the lowest address. -/
  room : ∀ depth ∈ depths 0 instructions, 8 * (depth + 1) ≤ base.toNat

end Instruction

namespace Session

/-- Do what some instructions stand for, one after the other. -/
def actAll (session : Session) (instructions : List Instruction) : Option Session :=
  instructions.foldlM act session

/-- Words ask for what their instructions stand for. -/
theorem obeyAll_eq_actAll (session : Session) (before : Nat) (words : List Word) :
    session.obeyAll words = session.actAll (Instruction.sequence before words) := by
  induction words generalizing session before with
  | nil => rfl
  | cons word words ih =>
    rw [obeyAll_cons session before]
    cases acted : session.act (Instruction.ofText before word.text) with
    | none => simp [actAll, Instruction.sequence, acted]
    | some later =>
      simp only [actAll, Instruction.sequence, List.foldlM_cons, acted]
      exact ih later _

/-- Instructions that always find enough words lead to a session. -/
theorem actAll_of_neverShort {session : Session} {instructions : List Instruction}
    (deep : Instruction.NeverShort session.stack.length instructions) :
    ∃ later, session.actAll instructions = some later := by
  induction instructions generalizing session with
  | nil => exact ⟨session, rfl⟩
  | cons instruction instructions ih =>
    obtain ⟨between, acted, length⟩ := act_of_pops (Int.ofNat_le.mp deep.1)
    obtain ⟨later, others⟩ := ih (by rw [length]; exact deep.2)
    refine ⟨later, ?_⟩
    rw [actAll, List.foldlM_cons, acted]
    exact others

end Session

namespace Machine

variable {host : Host} {listing : Listing} {machine : Machine} {base : UInt64}
  {session after : Session}

/-- The blocks of instructions do one after the other what the instructions stand for. -/
theorem Mirrors.carries_blocks {instructions : List Instruction}
    (mirrors : machine.Mirrors base session)
    (has : listing.Has machine.place ((Program.blockLines instructions).map Line.statement))
    (format : listing.HasFormat host)
    (low : 0 ≤ base.toInt64.toInt)
    (deep : Instruction.NeverShort session.stack.length instructions)
    (room : ∀ depth ∈ Instruction.depths session.stack.length instructions,
      8 * (depth + 1) ≤ base.toNat)
    (acted : session.actAll instructions = some after) :
    machine.Carries host listing base (Program.blockLines instructions) after := by
  induction instructions generalizing machine session with
  | nil =>
    cases acted
    exact ⟨machine, Relation.ReflTransGen.refl, rfl, mirrors⟩
  | cons instruction instructions ih =>
    obtain ⟨between, first, length⟩ := Session.act_of_pops (Int.ofNat_le.mp deep.1)
    have others : between.actAll instructions = some after := by
      rw [Session.actAll, List.foldlM_cons, first] at acted
      exact acted
    have deeper : Instruction.NeverShort between.stack.length instructions := by
      rw [length]
      exact deep.2
    have rooms : ∀ depth ∈ Instruction.depths between.stack.length instructions,
        8 * (depth + 1) ≤ base.toNat := by
      rw [length]
      exact fun depth there => room depth (List.mem_cons_of_mem _ there)
    cases compiled : Block.ofInstruction? instruction with
    | none =>
      -- A word without a meaning has no block and changes nothing.
      have same : between = session := by
        cases instruction <;> first | contradiction | exact (Option.some.inj first).symm
      rw [Program.blockLines_cons_none compiled] at has ⊢
      rw [same] at others deeper rooms
      exact ih mirrors has deeper rooms others
    | some block =>
      rw [Program.blockLines_cons_some compiled] at has ⊢
      rw [List.map_append] at has
      have passed : step host listing machine = some machine.next := by
        rw [step, has.left.head]
        rfl
      have current : listing.Has machine.next.place (block.lines.map Line.statement) :=
        has.left.tail
      have next : machine.next.Mirrors base session :=
        ⟨mirrors.stack.next, mirrors.held, mirrors.written⟩
      obtain ⟨later, reached, place, mirrored⟩ :=
        next.carries_block compiled current format first low
          (by have := room _ (Instruction.mem_depths _ _); omega)
          (by have := rooms _ (Instruction.mem_depths _ _); omega)
      have rest := has.right
      rw [List.length_map, List.length_cons, ← Nat.add_assoc, Nat.add_right_comm] at rest
      have followed : listing.Has later.place
          ((Program.blockLines instructions).map Line.statement) := by
        rw [place]
        exact rest
      have begun : Reaches host listing machine later :=
        Relation.ReflTransGen.head passed reached
      obtain ⟨final, continued, ended, settled⟩ := ih mirrored followed deeper rooms others
      refine ⟨final, begun.trans continued, ?_, settled⟩
      rw [ended, place, List.length_append, List.length_cons]
      simp only [Machine.next]
      omega

/-- The entry point remembers where the stack begins, and nothing is on it yet. -/
theorem reaches_opened
    (has : listing.Has machine.place
      [.label "_start", (Operation.move .rsp .rbp).statement])
    (silent : machine.held = [] ∧ machine.written = []) :
    ∃ later, Reaches host listing machine later ∧ later.place = machine.place + 2 ∧
      later.Mirrors (machine.registers .rsp) Session.start := by
  let opened := (machine.next.set .rbp (machine.registers .rsp)).next
  obtain ⟨reached, place⟩ := reaches_of_followAll has rfl
    (show followAll host listing _ machine = some opened from rfl)
  have pointer : opened.registers .rsp = machine.registers .rsp := by simp [opened]
  have empty : opened.Holds (opened.registers .rsp) [] := Holds.empty (by simp [opened])
  rw [pointer] at empty
  exact ⟨opened, reached, place, empty, silent.1, silent.2⟩

/-- The end of a program writes out what is held back and leaves the process. -/
theorem Mirrors.exits (mirrors : machine.Mirrors base session)
    (has : listing.Has machine.place ((.blank :: Program.closing).map Line.statement)) :
    ∃ later, Reaches host listing machine later ∧ later.Exits listing 0 ∧
      later.written = session.printed ∧ later.held = [] := by
  let aligned := machine.registers .rsp &&& extended (-16)
  let ready := ((machine.next.calculate .rsp aligned).next.calculate .rdi
    ((machine.registers .rdi ^^^ machine.registers .rdi) &&& 0xffffffff)).next
  let flushed := { ready.returned host "fflush" with
    held := []
    written := machine.written ++ machine.held }
  have called : ready.call host listing "fflush" = some flushed := by
    have pointer : ready.registers .rsp = aligned := by simp [ready]
    have argument : ready.registers .rdi = 0 := by simp [ready]
    rw [call, pointer, if_neg (not_not.mpr (and_mask_mod _)), if_neg (by decide), if_pos rfl,
      if_pos argument]
    rfl
  let left := ((flushed.set .rax (extended 60)).next.set .rdi (extended 0)).next
  have part : listing.Has machine.place
      (((.blank :: Program.closing).map Line.statement).take 6 ++ [.instruction .syscall []]) := has
  have followed : followAll host listing
      (((.blank :: Program.closing).map Line.statement).take 6) machine = some left := by
    change (ready.call host listing "fflush").bind _ = _
    rw [called]
    rfl
  obtain ⟨reached, place⟩ := reaches_of_followAll part.left rfl followed
  refine ⟨left, reached, ⟨?_, ?_, ?_⟩, ?_, rfl⟩
  · rw [place]
    exact part.right.head
  · have sixty : extended 60 = 60 := by decide
    simp [left, sixty]
  · have zero : extended 0 = 0 := by decide
    simp [left, zero]
  · change machine.written ++ machine.held = session.printed
    rw [mirrors.written, mirrors.held, List.nil_append]

end Machine

namespace Program

variable {listing : Listing} {instructions : List Instruction}

/-- The entry point, the blocks and the end of a program stand one after the other. -/
theorem has_parts (statements : listing.statements =
      (ofInstructions instructions).lines.map Line.statement ++ [.blank]) :
    listing.Has 7 [.label "_start", (Operation.move .rsp .rbp).statement] ∧
      listing.Has 9 ((blockLines instructions).map Line.statement) ∧
      listing.Has (9 + (blockLines instructions).length)
        ((.blank :: closing).map Line.statement) := by
  have whole : listing.Has 0 (opening.map Line.statement ++
      ((blockLines instructions).map Line.statement ++
        (.blank :: closing).map Line.statement)) :=
    ⟨[], [.blank], by simp [statements, lines_ofInstructions], rfl⟩
  have opened : listing.Has 0 ((opening.map Line.statement).take 7 ++
      [.label "_start", (Operation.move .rsp .rbp).statement]) := whole.left
  have blocks := whole.right.left
  have closed := whole.right.right
  rw [List.length_map, List.length_map] at closed
  exact ⟨opened.right, blocks, closed⟩

/-- The format of a program is the one that is printed with. -/
theorem hasFormat (statements : listing.statements =
      (ofInstructions instructions).lines.map Line.statement ++ [.blank]) (host : Host) :
    listing.HasFormat host := by
  rw [Listing.HasFormat, Listing.stringAt?, statements, lines, opening]
  exact if_pos rfl

end Program

/-- A host whose routines clear every register and all memory that they may. -/
def Host.careless : Host where
  address := fun symbol => if symbol = "fmt" then 8192 else 0
  registersAfter := fun _ machine register =>
    if register ∈ [.rbx, .rbp, .r12, .rsp] then machine.registers register else 0
  memoryAfter := fun _ machine address =>
    if machine.registers .rsp ≤ address then machine.memory address else 0
  keeps_register := fun _ _ _ kept => if_pos kept
  keeps_memory := fun _ _ _ above => if_pos above

/-- A machine at a line whose stack begins at an address. -/
def Machine.launched (place : Nat) (base : UInt64) : Machine where
  place := place
  registers := fun register => if register = .rsp then base else 0
  memory := fun _ => 0
  less := none
  held := []
  written := []

namespace Compilation

/-- Words that never find the stack too short are compiled to a program that writes out what
the interpreter prints, whatever the machine and its routines leave in the registers and in
the memory below the stack, and then leaves the process with status zero. -/
theorem exits_with_interpreted_output {words : List Word} {compilation : Compilation}
    (compiled : (ofWords words).outcome = .ok compilation) (few : Word.dumps words < UInt32.size)
    (deep : Instruction.NeverShort 0 (Instruction.sequence 0 words)) :
    ∃ listing session start, Listing.ofText? compilation.assembly = some listing ∧
      Session.start.obeyAll words = some session ∧ listing.place? "_start" = some start ∧
      ∀ (host : Host) (machine : Machine), machine.place = start → machine.held = [] →
        machine.written = [] →
        Instruction.HasRoom (machine.registers .rsp) (Instruction.sequence 0 words) →
        ∃ final, Machine.Reaches host listing machine final ∧ final.Exits listing 0 ∧
          final.written = session.printed ∧ final.held = [] := by
  obtain ⟨_, rfl⟩ := (outcome_ofWords_eq_ok_iff words compilation).mp compiled
  obtain ⟨listing, read, statements⟩ := Program.ofText?_text few
  obtain ⟨session, acted⟩ : ∃ session,
      Session.start.actAll (Instruction.sequence 0 words) = some session :=
    Session.actAll_of_neverShort deep
  have obeyed : Session.start.obeyAll words = some session := by
    rw [Session.obeyAll_eq_actAll Session.start 0, acted]
  obtain ⟨entry, blocks, closing⟩ := Program.has_parts statements
  refine ⟨listing, session, 7, read, obeyed, entry.place?, ?_⟩
  intro host machine place held written room
  have format := Program.hasFormat statements host
  rw [← place] at entry
  obtain ⟨opened, opening, openPlace, empty⟩ := Machine.reaches_opened entry ⟨held, written⟩
  have behind : opened.place = 9 := by rw [openPlace, place]
  rw [← behind] at blocks
  obtain ⟨worked, working, workPlace, mirrors⟩ :=
    empty.carries_blocks blocks format room.low deep room.room acted
  rw [behind] at workPlace
  have closed : listing.Has worked.place ((.blank :: Program.closing).map Line.statement) := by
    rw [workPlace]
    exact closing
  obtain ⟨final, leaving, exits, output, empty⟩ := mirrors.exits closed
  exact ⟨final, (opening.trans working).trans leaving, exits, output, empty⟩

/-- Squaring seven, looking at the stack and printing it, with a word that has no meaning. -/
def squareWords : List Word :=
  [⟨"7", ⟨1, 1⟩⟩, ⟨"dup", ⟨1, 3⟩⟩, ⟨"*", ⟨1, 7⟩⟩, ⟨"frobnicate", ⟨2, 1⟩⟩, ⟨"2147483648", ⟨2, 12⟩⟩,
    ⟨".s", ⟨3, 1⟩⟩, ⟨"+", ⟨3, 4⟩⟩, ⟨".", ⟨3, 6⟩⟩]

/-- Words that find enough on the stack, a machine whose stack begins at 4096, and routines that
clear everything they may: the numbers are written out. -/
theorem exits_with_interpreted_output_square :
    ∃ listing start final, Listing.ofText? (ofFitting squareWords).assembly = some listing ∧
      listing.place? "_start" = some start ∧
      Machine.Reaches Host.careless listing (Machine.launched start 4096) final ∧
      final.Exits listing 0 ∧ final.written = [49, 2147483648, 2147483697] := by
  have compiled : (ofWords squareWords).outcome = .ok (ofFitting squareWords) := by
    rw [outcome_ofWords_eq_ok_iff]
    exact ⟨by decide, rfl⟩
  have printed : Session.start.obeyAll squareWords =
      some ⟨[], [49, 2147483648, 2147483697]⟩ := by decide
  have deep : Instruction.NeverShort 0 (Instruction.sequence 0 squareWords) := by decide
  obtain ⟨listing, session, start, read, obeyed, placed, runs⟩ :=
    exits_with_interpreted_output compiled (by decide) deep
  rw [printed] at obeyed
  cases obeyed
  have room : Instruction.HasRoom 4096 (Instruction.sequence 0 squareWords) := by
    exact ⟨by decide, by decide⟩
  obtain ⟨final, reached, exits, output, _⟩ :=
    runs Host.careless (Machine.launched start 4096) rfl rfl rfl room
  exact ⟨listing, start, final, read, placed, reached, exits, output⟩

end Compilation

end ForthAsm
