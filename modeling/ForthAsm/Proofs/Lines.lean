import ForthAsm.Proofs.Labels
import ForthAsm.Proofs.Scan

/-!
# Sources one below the other

A line feed brings the reading of a source back to its start, whatever came before it: it ends
a word, it ends a comment, and the next byte stands in the first column. So a source below
another one is compiled as if it stood alone. Its words are some lines further down, its dumps
come behind those of the source above, and a failure of the source above comes first.

Main statements: `Word.allOfBytes_lines`, the words of two sources one below the other, and
`Compilation.outcome_ofBytes_lines`, what they are compiled to.
-/

namespace ForthAsm

/-- The position some lines further down. -/
def Position.down (lines : Nat) (position : Position) : Position :=
  ⟨position.line + lines, position.column⟩

/-- The word some lines further down. -/
def Word.down (lines : Nat) (word : Word) : Word :=
  { word with position := word.position.down lines }

/-- The diagnostic about the same word some lines further down. -/
def Diagnostic.down (lines : Nat) : Diagnostic → Diagnostic
  | unrecognized word => unrecognized (word.down lines)

/-- The loop that comes behind a number of other loops. -/
def LoopNumber.later (loops : Nat) (loop : LoopNumber) : LoopNumber :=
  ⟨loop.index + UInt32.ofNat loops⟩

/-- The label of the same kind of a loop behind a number of other loops. -/
def Label.later (loops : Nat) : Label → Label
  | loopTop loop => loopTop (loop.later loops)
  | loopEnd loop => loopEnd (loop.later loops)
  | format => format
  | entry => entry

/-- The operation with every label behind a number of other loops. -/
def Operation.later (loops : Nat) : Operation → Operation
  | address label target => address (label.later loops) target
  | jump label => jump (label.later loops)
  | jumpLess label => jumpLess (label.later loops)
  | operation => operation

/-- The line with every label behind a number of other loops. -/
def Line.later (loops : Nat) : Line → Line
  | global place => global (place.later loops)
  | label place => label (place.later loops)
  | operation indent content => operation indent (content.later loops)
  | line => line

/-- The block with every label behind a number of other loops. -/
def Block.later (loops : Nat) (block : Block) : Block :=
  ⟨block.lines.map (Line.later loops)⟩

/-- The instruction behind a number of other loops. -/
def Instruction.later (loops : Nat) : Instruction → Instruction
  | dump loop => dump (loop.later loops)
  | instruction => instruction

/-- The text of some blocks, each behind an empty line. -/
def Block.textOf (blocks : List Block) : String :=
  String.join (blocks.map fun block => "\n" ++ block.text)

namespace Position

/-- Every line feed among some bytes leads to the next line. -/
theorem line_advanceAll (position : Position) (bytes : List UInt8) :
    (position.advanceAll bytes).line = position.line + bytes.count Byte.lineFeed := by
  induction bytes generalizing position with
  | nil => rfl
  | cons byte bytes ih =>
    rw [advanceAll_cons, ih, List.count_cons]
    by_cases ends : byte = Byte.lineFeed
    · rw [ends, advance_lineFeed]
      simp
      omega
    · rw [advance_of_ne ends]
      simp [ends]

/-- A byte leads to the same place some lines further down. -/
theorem advance_down (lines : Nat) (position : Position) (byte : UInt8) :
    (position.down lines).advance byte = (position.advance byte).down lines := by
  by_cases ends : byte = Byte.lineFeed
  · simp [ends, down, Nat.add_right_comm]
  · simp [advance_of_ne ends, down]

/-- Behind a source and a line feed is the start of a source below as many lines. -/
theorem advance_advanceAll_start (bytes : List UInt8) :
    (start.advanceAll bytes).advance Byte.lineFeed =
      start.down (1 + bytes.count Byte.lineFeed) := by
  rw [advance_lineFeed, line_advanceAll]
  simp only [start, down, Position.mk.injEq, and_true]
  omega

end Position

/-- The mode that has read the same bytes some lines further down. -/
def Mode.down (lines : Nat) : Mode → Mode
  | blank => blank
  | word pending => word (pending.down lines)
  | comment held => comment (held.map (Word.down lines))

/-- What a byte leads to some lines further down. -/
def Progress.down (lines : Nat) : Progress → Progress
  | onward mode => onward (mode.down lines)
  | complete word => complete (word.down lines)

namespace Mode

/-- A byte has the same effect some lines further down. -/
theorem read_down (lines : Nat) (position : Position) (byte : UInt8) (mode : Mode) :
    (mode.down lines).read (position.down lines) byte = (mode.read position byte).down lines := by
  cases mode with
  | blank =>
    by_cases opens : Byte.opensComment byte = true
    · simp [down, read, Progress.down, opens]
    · by_cases blank : Byte.isBlank byte = true
      · simp [down, read, Progress.down, opens, blank]
      · simp [down, read, Progress.down, opens, blank, Word.ofByte, Word.down]
  | word pending =>
    by_cases opens : Byte.opensComment byte = true
    · simp [down, read, Progress.down, opens]
    · by_cases blank : Byte.isBlank byte = true
      · simp [down, read, Progress.down, opens, blank]
      · simp [down, read, Progress.down, opens, blank, Word.extend, Word.down]
  | comment held =>
    by_cases ends : byte = Byte.lineFeed
    · cases held <;> simp [down, read, Progress.down, ends]
    · simp [down, read, Progress.down, ends]

/-- The words of some bytes are found some lines further down as well. -/
theorem scan_down (lines : Nat) (mode : Mode) (position : Position) (bytes : List UInt8) :
    (mode.down lines).scan (position.down lines) bytes =
      (mode.scan position bytes).map (Word.down lines) := by
  induction bytes generalizing mode position with
  | nil =>
    cases mode with
    | blank => rfl
    | word pending => rfl
    | comment held => cases held <;> rfl
  | cons byte bytes ih =>
    rw [scan, scan, read_down, Position.advance_down]
    cases mode.read position byte with
    | onward later => exact ih later (position.advance byte)
    | complete word =>
      simp only [Progress.down, List.map_cons, List.cons.injEq, true_and]
      exact ih blank (position.advance byte)

/-- A line feed ends whatever stands before it: what comes behind it is read from a blank. -/
theorem scan_lineFeed (mode : Mode) (position : Position) (first second : List UInt8) :
    mode.scan position (first ++ Byte.lineFeed :: second) =
      mode.scan position first ++
        blank.scan ((position.advanceAll first).advance Byte.lineFeed) second := by
  induction first generalizing mode position with
  | nil =>
    rw [List.nil_append, scan]
    cases mode with
    | blank => rfl
    | word pending => rfl
    | comment held => cases held <;> rfl
  | cons byte first ih =>
    rw [List.cons_append, scan, scan, Position.advanceAll_cons]
    cases mode.read position byte with
    | onward later => exact ih later (position.advance byte)
    | complete word => simp only [ih, List.cons_append]

end Mode

/-- The words of two sources one below the other: those of the first, and those of the second
as many lines further down as the first one has. -/
theorem Word.allOfBytes_lines (first second : List UInt8) :
    allOfBytes (first ++ Byte.lineFeed :: second) =
      allOfBytes first ++
        (allOfBytes second).map (Word.down (1 + first.count Byte.lineFeed)) := by
  rw [allOfBytes_eq_scan, allOfBytes_eq_scan, allOfBytes_eq_scan, Mode.scan_lineFeed,
    Position.advance_advanceAll_start]
  exact congrArg _ (Mode.scan_down _ .blank Position.start second)

namespace Word

variable (lines : Nat) (words : List Word)

/-- The first word that does not fit is the same one, further down. -/
theorem firstLarge?_map_down :
    firstLarge? (words.map (down lines)) = (firstLarge? words).map (down lines) := by
  rw [firstLarge?, List.find?_map]
  rfl

/-- Of two lists of words the first one decides which word does not fit, if it has one. -/
theorem firstLarge?_append (others : List Word) :
    firstLarge? (words ++ others) = (firstLarge? words).or (firstLarge? others) := by
  rw [firstLarge?, List.find?_append]
  rfl

/-- The same words are reported further down. -/
theorem map_unrecognized_down :
    ((words.map (down lines)).filter isUnrecognized).map Diagnostic.unrecognized =
      ((words.filter isUnrecognized).map Diagnostic.unrecognized).map
        (Diagnostic.down lines) := by
  rw [List.filter_map, List.map_map, List.map_map]
  rfl

end Word

namespace Instruction

/-- The instruction of a text behind more dumps has a later loop. -/
theorem ofText_add (before loops : Nat) (text : String) :
    ofText (before + loops) text = (ofText before text).later loops := by
  unfold ofText
  split
  · rfl
  · split
    · simp [later, LoopNumber.later, UInt32.ofNat_add]
    · unfold ofName?
      split <;> rfl

/-- The instructions of words behind more dumps have later loops. -/
theorem sequence_add (before loops : Nat) (words : List Word) :
    sequence (before + loops) words = (sequence before words).map (later loops) := by
  induction words generalizing before with
  | nil => rfl
  | cons word words ih =>
    rw [sequence, sequence, List.map_cons, ofText_add, ← ih, Nat.add_right_comm]

/-- The instructions of two lists of words: the second list comes behind the dumps of the
first. -/
theorem sequence_append (before : Nat) (words others : List Word) :
    sequence before (words ++ others) =
      sequence before words ++ sequence (before + Word.dumps words) others := by
  induction words generalizing before with
  | nil => rfl
  | cons word words ih =>
    rw [List.cons_append, sequence, sequence, ih, List.cons_append, Word.dumps_cons]
    congr 3
    omega

/-- Where words stand makes no difference to their instructions. -/
theorem sequence_map_down (lines before : Nat) (words : List Word) :
    sequence before (words.map (Word.down lines)) = sequence before words := by
  induction words generalizing before with
  | nil => rfl
  | cons word words ih =>
    rw [List.map_cons, sequence, sequence, ih]
    rfl

end Instruction

namespace Block

/-- Operations without labels do not depend on loops. -/
theorem map_later_pushNumber (loops : Nat) (value : UInt64) :
    (atMargin (pushNumber value)).map (Line.later loops) = atMargin (pushNumber value) := by
  unfold pushNumber
  split <;> rfl

/-- The block of an instruction with a later loop is its block with later labels. -/
theorem ofInstruction?_later (loops : Nat) (instruction : Instruction) :
    ofInstruction? (instruction.later loops) = (ofInstruction? instruction).map (later loops) := by
  cases instruction with
  | push value =>
    simp [Instruction.later, ofInstruction?, later, map_later_pushNumber]
  | _ => rfl

/-- The blocks of instructions with later loops are their blocks with later labels. -/
theorem filterMap_ofInstruction?_later (loops : Nat) (instructions : List Instruction) :
    (instructions.map (Instruction.later loops)).filterMap ofInstruction? =
      (instructions.filterMap ofInstruction?).map (later loops) := by
  rw [List.filterMap_map, List.map_filterMap]
  congr 1
  funext instruction
  exact ofInstruction?_later loops instruction

/-- The text of the first block comes first. -/
theorem textOf_cons (block : Block) (blocks : List Block) :
    textOf (block :: blocks) = "\n" ++ block.text ++ textOf blocks := by
  simp [textOf]

/-- The texts of two groups of blocks stand one after the other. -/
theorem textOf_append (first second : List Block) :
    textOf (first ++ second) = textOf first ++ textOf second := by
  simp [textOf]

/-- The lines of some blocks, each behind an empty line, have the text of the blocks. -/
theorem textOf_lines (blocks : List Block) :
    Line.textOf (blocks.flatMap fun block => .blank :: block.lines) = textOf blocks := by
  induction blocks with
  | nil => rfl
  | cons block blocks ih =>
    rw [List.flatMap_cons, Line.textOf_append, ih, textOf_cons, Line.textOf_cons, text]
    rfl

end Block

/-- The text of a program: the fixed opening, the blocks and the fixed ending. -/
theorem Program.text_eq (program : Program) :
    program.text = Line.textOf opening ++ Block.textOf program.blocks.toList ++ "\n" ++
      Line.textOf closing := by
  rw [text, lines, Line.textOf_append, Line.textOf_append, Line.textOf_cons, Block.textOf_lines,
    ← String.append_assoc]
  rfl

/-- The labels of words behind a number of dumps keep their distance: no number of theirs
exceeds 32 bits. -/
theorem LoopNumber.toNat_index_later {loops : Nat} {words : List Word}
    (few : loops + Word.dumps words < UInt32.size) {loop : LoopNumber}
    (defined : .loopTop loop ∈ (Program.ofInstructions (Instruction.sequence 0 words)).labels ∨
      .loopEnd loop ∈ (Program.ofInstructions (Instruction.sequence 0 words)).labels) :
    (loop.later loops).index.toNat = loop.index.toNat + loops := by
  have limit : UInt32.size = 4294967296 := rfl
  have numbered : ∃ index < Word.dumps words, loop = ⟨UInt32.ofNat index⟩ := by
    simpa [Program.labels_of_words, Label.ofDumps] using defined
  obtain ⟨index, small, rfl⟩ := numbered
  simp only [later, UInt32.toNat_add, UInt32.toNat_ofNat']
  omega

/-- What two drafts amount to one below the other: the blocks of the lower one have their
labels behind a number of loops, and its diagnostics are some lines further down. -/
def Draft.stacked (lines loops : Nat) (top bottom : Draft) : Compilation where
  assembly := Line.textOf Program.opening ++ Block.textOf top.program.blocks.toList ++
    Block.textOf (bottom.program.blocks.toList.map (Block.later loops)) ++ "\n" ++
      Line.textOf Program.closing
  diagnostics := top.diagnostics.toList ++
    bottom.diagnostics.toList.map (Diagnostic.down lines)

namespace Compilation

/-- Words below others are compiled to the stack of the two drafts. -/
theorem ofFitting_append_down (lines : Nat) (words others : List Word) :
    ofFitting (words ++ others.map (Word.down lines)) =
      Draft.stacked lines (Word.dumps words) (Draft.fresh.behind 0 words)
        (Draft.fresh.behind 0 others) := by
  have lower : Instruction.sequence (0 + Word.dumps words) (others.map (Word.down lines)) =
      (Instruction.sequence 0 others).map (Instruction.later (Word.dumps words)) := by
    rw [Instruction.sequence_map_down, Instruction.sequence_add]
  have blocks : (Program.ofInstructions (Instruction.sequence 0
      (words ++ others.map (Word.down lines)))).blocks.toList =
        (Draft.fresh.behind 0 words).program.blocks.toList ++
          (Draft.fresh.behind 0 others).program.blocks.toList.map
            (Block.later (Word.dumps words)) := by
    simp only [Program.ofInstructions, Instruction.sequence_append, lower,
      List.filterMap_append, Block.filterMap_ofInstruction?_later]
    simp [Draft.behind, Draft.fresh, Program.empty, Program.ofInstructions]
  have diagnostics : ((words ++ others.map (Word.down lines)).filter
      Word.isUnrecognized).map Diagnostic.unrecognized =
        (Draft.fresh.behind 0 words).diagnostics.toList ++
          (Draft.fresh.behind 0 others).diagnostics.toList.map (Diagnostic.down lines) := by
    rw [List.filter_append, List.map_append, Word.map_unrecognized_down]
    simp [Draft.behind, Draft.fresh]
  rw [ofFitting, Draft.stacked, Program.text_eq, blocks, Block.textOf_append, diagnostics,
    ← String.append_assoc]

/-- Two sources one below the other. A failure of the first is the failure; a failure of the
second is the failure as many lines further down as the first one has; and without a failure
the diagnostics of the second are that much further down, and its blocks come behind those of
the first with their loops numbered behind the dumps of the first. -/
theorem outcome_ofBytes_lines {first second : List UInt8}
    (few : Word.dumps (Word.allOfBytes first) + Word.dumps (Word.allOfBytes second) <
      UInt32.size) :
    (∀ failure, (ofBytes first).outcome = .error failure →
      (ofBytes (first ++ Byte.lineFeed :: second)).outcome = .error failure) ∧
    (∀ above failure, (ofBytes first).outcome = .ok above →
      (ofBytes second).outcome = .error failure →
        ∃ word, failure = .literalOutOfRange word ∧
          (ofBytes (first ++ Byte.lineFeed :: second)).outcome =
            .error (.literalOutOfRange (word.down (1 + first.count Byte.lineFeed)))) ∧
    (∀ above below, (ofBytes first).outcome = .ok above → (ofBytes second).outcome = .ok below →
      ∃ top bottom, (Draft.fresh.takeAll #[] (Word.allOfBytes first)).outcome = .ok top ∧
        top.result = above ∧
        (Draft.fresh.takeAll #[] (Word.allOfBytes second)).outcome = .ok bottom ∧
        bottom.result = below ∧
        (ofBytes (first ++ Byte.lineFeed :: second)).outcome =
          .ok (Draft.stacked (1 + first.count Byte.lineFeed)
            (Word.dumps (Word.allOfBytes first)) top bottom) ∧
        ∀ loop, .loopTop loop ∈ bottom.program.labels ∨ .loopEnd loop ∈ bottom.program.labels →
          (loop.later (Word.dumps (Word.allOfBytes first))).index.toNat =
            loop.index.toNat + Word.dumps (Word.allOfBytes first)) := by
  have joined : (ofBytes (first ++ Byte.lineFeed :: second)).outcome = _ :=
    outcome_ofWords (Word.allOfBytes (first ++ Byte.lineFeed :: second))
  -- The words of the second source are looked at only if those of the first all fit.
  rw [Word.allOfBytes_lines, Word.firstLarge?_append, Word.firstLarge?_map_down] at joined
  have upper : (ofBytes first).outcome = _ := outcome_ofWords (Word.allOfBytes first)
  have lower : (ofBytes second).outcome = _ := outcome_ofWords (Word.allOfBytes second)
  refine ⟨?_, ?_, ?_⟩
  · intro failure failed
    rw [upper] at failed
    rw [joined]
    cases large : Word.firstLarge? (Word.allOfBytes first) with
    | none => simp [large] at failed
    | some word => simpa [large] using failed
  · intro above failure compiled failed
    rw [upper] at compiled
    rw [lower] at failed
    rw [joined]
    cases large : Word.firstLarge? (Word.allOfBytes first) with
    | some word => simp [large] at compiled
    | none =>
      cases larger : Word.firstLarge? (Word.allOfBytes second) with
      | none => simp [larger] at failed
      | some word => exact ⟨word, by simpa [larger] using failed.symm, by simp⟩
  · intro above below compiled compiledBelow
    obtain ⟨fit, rfl⟩ := (outcome_ofWords_eq_ok_iff _ above).mp compiled
    obtain ⟨fitBelow, rfl⟩ := (outcome_ofWords_eq_ok_iff _ below).mp compiledBelow
    have drawn : Draft.fresh.loops = ⟨UInt32.ofNat 0⟩ := rfl
    refine ⟨_, _, Draft.outcome_takeAll_of_fits drawn #[] fit, result_behind_fresh _,
      Draft.outcome_takeAll_of_fits drawn #[] fitBelow, result_behind_fresh _, ?_, ?_⟩
    · rw [joined, Word.firstLarge?_eq_none_iff.mpr fit,
        Word.firstLarge?_eq_none_iff.mpr fitBelow]
      simp [ofFitting_append_down]
    · intro loop defined
      apply LoopNumber.toNat_index_later few
      simpa [Draft.behind, Draft.fresh, Program.empty] using defined

/-- A source that ends in the middle of a comment, behind a dump. -/
def upperSource : List UInt8 :=
  "7 .s / .s".toUTF8.data.toList

/-- A source with a word that has no meaning before a dump. -/
def lowerSource : List UInt8 :=
  "frobnicate .s".toUTF8.data.toList

/-- The line feed between the two sources ends the comment, the word without a meaning is
reported in the second line, and the dump of the lower source has the loop number one. -/
theorem outcome_ofBytes_lines_comment :
    ∃ compilation,
      (ofBytes (upperSource ++ Byte.lineFeed :: lowerSource)).outcome = .ok compilation ∧
      compilation.diagnostics = [.unrecognized ⟨"frobnicate", ⟨2, 1⟩⟩] ∧
      compilation.assembly = Line.textOf Program.opening ++
        Block.textOf [⟨Block.atMargin [.pushImmediate 7]⟩, ⟨Block.dumpStack ⟨0⟩⟩] ++
        Block.textOf [⟨Block.dumpStack ⟨1⟩⟩] ++ "\n" ++ Line.textOf Program.closing := by
  have upper : Word.allOfBytes upperSource = [⟨"7", ⟨1, 1⟩⟩, ⟨".s", ⟨1, 3⟩⟩] := by
    rw [Word.allOfBytes_eq_scan]
    decide
  have lower : Word.allOfBytes lowerSource = [⟨"frobnicate", ⟨1, 1⟩⟩, ⟨".s", ⟨1, 12⟩⟩] := by
    rw [Word.allOfBytes_eq_scan]
    decide
  have compiled : (ofBytes upperSource).outcome =
      .ok (ofFitting (Word.allOfBytes upperSource)) := by
    rw [ofBytes, outcome_ofWords_eq_ok_iff, upper]
    exact ⟨by decide, rfl⟩
  have compiledBelow : (ofBytes lowerSource).outcome =
      .ok (ofFitting (Word.allOfBytes lowerSource)) := by
    rw [ofBytes, outcome_ofWords_eq_ok_iff, lower]
    exact ⟨by decide, rfl⟩
  have few : Word.dumps (Word.allOfBytes upperSource) +
      Word.dumps (Word.allOfBytes lowerSource) < UInt32.size := by
    rw [upper, lower]
    decide
  obtain ⟨top, bottom, taken, -, takenBelow, -, joined, -⟩ :=
    (outcome_ofBytes_lines few).2.2 _ _ compiled compiledBelow
  rw [upper] at taken joined
  rw [lower] at takenBelow
  have drawn : Draft.fresh.loops = ⟨UInt32.ofNat 0⟩ := rfl
  rw [Draft.outcome_takeAll_of_fits drawn #[] (by decide), Except.ok.injEq] at taken takenBelow
  rw [← taken, ← takenBelow] at joined
  have blocks : (Draft.fresh.behind 0 [⟨"7", ⟨1, 1⟩⟩, ⟨".s", ⟨1, 3⟩⟩]).program.blocks.toList =
      [⟨Block.atMargin [.pushImmediate 7]⟩, ⟨Block.dumpStack ⟨0⟩⟩] := by decide
  have blocksBelow : (Draft.fresh.behind 0
      [⟨"frobnicate", ⟨1, 1⟩⟩, ⟨".s", ⟨1, 12⟩⟩]).program.blocks.toList.map
        (Block.later (Word.dumps [⟨"7", ⟨1, 1⟩⟩, ⟨".s", ⟨1, 3⟩⟩])) =
      [⟨Block.dumpStack ⟨1⟩⟩] := by decide
  exact ⟨_, joined, by decide, by rw [Draft.stacked, blocks, blocksBelow]⟩

end Compilation

end ForthAsm
