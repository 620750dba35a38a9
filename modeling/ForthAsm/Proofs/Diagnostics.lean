import ForthAsm.Proofs.Entries
import ForthAsm.Proofs.Layout
import ForthAsm.Proofs.Outcomes
import ForthAsm.Proofs.Reports

/-!
# Diagnostics on the error stream

A compilation that succeeds says on the error stream which words it skipped, each on a line of its
own. The words are shown as they are, whatever characters they hold, but no word holds a line feed,
so a line feed that does not belong to the path of the source ends a line. Behind the path, which is
known, stand two numbers that colons end, a fixed text and the word: from the stream the words and
their positions can be told.

Main statements: `Report.diagnosticLines_injective`, different words are reported differently, and
`Tree.errors_faithful`, what a successful compilation says on the error stream.
-/

namespace ForthAsm

/-- The words of a source that are neither literals nor names of operations. -/
def Word.skippedOf (source : List UInt8) : List Word :=
  (allOfBytes source).filter fun word => !word.isRecognized

/-- No word of a source holds a line feed. -/
theorem Word.inline_of_mem_skippedOf {source : List UInt8} {word : Word}
    (there : word ∈ skippedOf source) : '\n' ∉ word.text.toList := by
  intro feed
  have readable := (allReadable_allOfBytes source).each word (List.mem_of_mem_filter there)
  exact absurd (readable.holds '\n' feed).2 (by decide)

/-- Of two equal texts that are each cut at their first separator, the parts are equal. -/
theorem append_separator_inj {separator : Char} {first other rest more : List Char}
    (absent : separator ∉ first) (absentOther : separator ∉ other)
    (same : first ++ separator :: rest = other ++ separator :: more) :
    first = other ∧ rest = more := by
  have cut := congrArg (cutAt separator) same
  rw [cutAt_append absent, cutAt_append absentOther, List.cons.injEq] at cut
  obtain ⟨rfl, -⟩ := cut
  exact ⟨rfl, List.tail_eq_of_cons_eq (List.append_cancel_left same)⟩

namespace Report

variable {source : String} {word other : Word} {words others : List Word}

/-- What stands between the position and the word in the line of a diagnostic. -/
def caption : List Char :=
  " Unrecognized token: ".toList

/-- The line of a diagnostic holds the path, the line, the column and the word. -/
theorem diagnosticLine_eq (source : String) (diagnostic : Diagnostic) :
    diagnosticLine source diagnostic =
      source ++ ":" ++ toString diagnostic.position.line ++ ":" ++
        toString diagnostic.position.column ++ ": Unrecognized token: " ++
          diagnostic.word.text ++ "\n" := by
  have message : diagnostic.message = "Unrecognized token: " ++ diagnostic.word.text := rfl
  have heading : ": Unrecognized token: " = ": " ++ "Unrecognized token: " := by
    rw [← String.toList_inj, String.toList_append]
    rfl
  simp only [diagnosticLine, Position.text, message, heading, String.append_assoc]

/-- The characters of the line of a diagnostic: a colon ends the path, the line and the column, and
a line feed ends the word. -/
theorem toList_diagnosticLine (source : String) (word : Word) :
    (diagnosticLine source (.unrecognized word)).toList =
      source.toList ++ ':' :: (Nat.toDigits 10 word.position.line ++
        ':' :: (Nat.toDigits 10 word.position.column ++
          ':' :: (caption ++ (word.text.toList ++ ['\n'])))) := by
  have digits : ∀ number : Nat, (toString number).toList = Nat.toDigits 10 number := by simp
  have colon : ":".toList = [':'] := rfl
  have heading : ": Unrecognized token: ".toList = ':' :: caption := rfl
  have feed : "\n".toList = ['\n'] := rfl
  rw [diagnosticLine_eq]
  simp only [Diagnostic.position, Diagnostic.word, String.toList_append, digits, colon, heading,
    feed, List.append_assoc, List.cons_append, List.nil_append]

/-- The lines of diagnostics stand one after the other. -/
theorem diagnosticLines_eq_join (source : String) (diagnostics : List Diagnostic) :
    diagnosticLines source diagnostics =
      String.join (diagnostics.map (diagnosticLine source)) := by
  rw [diagnosticLines, String.join, List.foldl_map]

/-- The line of the first word comes first. -/
theorem toList_diagnosticLines_cons (source : String) (word : Word) (words : List Word) :
    (diagnosticLines source ((word :: words).map .unrecognized)).toList =
      (diagnosticLine source (.unrecognized word)).toList ++
        (diagnosticLines source (words.map .unrecognized)).toList := by
  rw [diagnosticLines_eq_join, diagnosticLines_eq_join, String.toList_join, String.toList_join]
  rfl

/-- A digit is no colon. -/
theorem colon_not_mem_toDigits (number : Nat) : ':' ∉ Nat.toDigits 10 number :=
  fun there => (plain_toDigits number ':' there).2.2.1 rfl

/-- The first line tells its word, and where it ends. -/
theorem diagnosticLine_inj {rest more : List Char} (inline : '\n' ∉ word.text.toList)
    (inlineOther : '\n' ∉ other.text.toList)
    (same : (diagnosticLine source (.unrecognized word)).toList ++ rest =
      (diagnosticLine source (.unrecognized other)).toList ++ more) :
    word = other ∧ rest = more := by
  simp only [toList_diagnosticLine, List.append_assoc, List.cons_append, List.nil_append] at same
  have behindPath := List.tail_eq_of_cons_eq (List.append_cancel_left same)
  obtain ⟨lines, behindLine⟩ := append_separator_inj (colon_not_mem_toDigits _)
    (colon_not_mem_toDigits _) behindPath
  obtain ⟨columns, behindColumn⟩ := append_separator_inj (colon_not_mem_toDigits _)
    (colon_not_mem_toDigits _) behindLine
  obtain ⟨texts, behind⟩ := append_separator_inj inline inlineOther
    (List.append_cancel_left behindColumn)
  refine ⟨?_, behind⟩
  obtain ⟨text, line, column⟩ := word
  obtain ⟨otherText, otherLine, otherColumn⟩ := other
  rw [Word.mk.injEq, Position.mk.injEq]
  exact ⟨String.toList_inj.mp texts, Literal.toDigits_injective lines,
    Literal.toDigits_injective columns⟩

/-- Different lists of words are reported differently, whatever their texts are besides line
feeds. -/
theorem diagnosticLines_injective (inline : ∀ word ∈ words, '\n' ∉ word.text.toList)
    (inlineOthers : ∀ word ∈ others, '\n' ∉ word.text.toList)
    (same : diagnosticLines source (words.map .unrecognized) =
      diagnosticLines source (others.map .unrecognized)) : words = others := by
  -- A line is not empty, so no list is reported as a longer one.
  have filled : ∀ (word : Word) (rest : List Char),
      [] ≠ (diagnosticLine source (.unrecognized word)).toList ++ rest := by
    intro word rest empty
    simp [toList_diagnosticLine] at empty
  induction words generalizing others with
  | nil =>
    cases others with
    | nil => rfl
    | cons other others =>
      have characters := congrArg String.toList same
      rw [toList_diagnosticLines_cons] at characters
      exact absurd characters (filled other _)
  | cons word words ih =>
    have characters := congrArg String.toList same
    cases others with
    | nil =>
      rw [toList_diagnosticLines_cons] at characters
      exact absurd characters.symm (filled word _)
    | cons other others =>
      rw [toList_diagnosticLines_cons, toList_diagnosticLines_cons] at characters
      obtain ⟨rfl, rest⟩ := diagnosticLine_inj (inline word List.mem_cons_self)
        (inlineOthers other List.mem_cons_self) characters
      rw [ih (fun later there => inline later (List.mem_cons_of_mem _ there))
        (fun later there => inlineOthers later (List.mem_cons_of_mem _ there))
        (String.toList_inj.mp rest)]

/-- With a path in one line there are as many line feeds as words. -/
theorem count_diagnosticLines (path : '\n' ∉ source.toList)
    (inline : ∀ word ∈ words, '\n' ∉ word.text.toList) :
    (diagnosticLines source (words.map .unrecognized)).toList.count '\n' = words.length := by
  have digits : ∀ number : Nat, (Nat.toDigits 10 number).count '\n' = 0 := by
    intro number
    rw [List.count_eq_zero]
    exact fun there => (plain_toDigits number '\n' there).2.2.2.1 rfl
  have captions : caption.count '\n' = 0 := by decide
  induction words with
  | nil => rfl
  | cons word words ih =>
    have others := ih fun later there => inline later (List.mem_cons_of_mem _ there)
    have text := List.count_eq_zero.mpr (inline word List.mem_cons_self)
    rw [toList_diagnosticLines_cons, List.count_append, others, toList_diagnosticLine]
    simp [digits, captions, text, List.count_eq_zero.mpr path, Nat.add_comm]

end Report

namespace Tree

/-- A run that succeeds: the command line names a source file, the content of the file can be
compiled, and the program can be written. -/
structure Succeeds (tree : Tree) (arguments : List String) (source : String)
    (content : List UInt8) (compiled : Compilation) : Prop where
  /-- The command line names the source file. -/
  named : Invocation.ofArguments arguments = .compile source
  /-- The file can be read. -/
  holds : tree.read source = .ok content
  /-- Its content can be compiled. -/
  made : (Compilation.ofBytes content).outcome = .ok compiled
  /-- The program can be written. -/
  writable : ∃ place, tree.target Usage.outputPath = .ok place

variable {tree : Tree} {arguments : List String} {source : String} {content : List UInt8}
  {compiled : Compilation}

/-- The diagnostics of a compilation are about the words that it skipped. -/
theorem Succeeds.diagnostics_eq (succeeds : tree.Succeeds arguments source content compiled) :
    compiled.diagnostics = (Word.skippedOf content).map .unrecognized := by
  obtain ⟨-, rfl⟩ := (Compilation.outcome_ofWords_eq_ok_iff _ _).mp succeeds.made
  have skipped : Word.isUnrecognized = fun word => !word.isRecognized :=
    funext Word.isUnrecognized_eq
  rw [Compilation.ofFitting, Word.skippedOf, skipped]

/-- Without a log, a run that succeeds says nothing but its diagnostics. -/
theorem Succeeds.errors_eq (succeeds : tree.Succeeds arguments source content compiled) :
    (tree.run .off arguments).1.errors =
      Report.diagnosticLines source ((Word.skippedOf content).map .unrecognized) := by
  obtain ⟨place, found⟩ := succeeds.writable
  have ended : (tree.compile source Usage.outputPath).1.outcome = .ok compiled :=
    (Compilation.outcome_compile_eq succeeds.holds found).trans succeeds.made
  rw [← succeeds.diagnostics_eq]
  simp [run_eq, succeeds.named, Report.ofCompilation, ended, Report.warned, Setting.warnings_off,
    Setting.report_off]

/-- What a run that succeeds says on the error stream, without a log: one line for each diagnostic,
with the path of the source, the position and the word as it is. The diagnostics are about the words
that were skipped, and runs with the same path say the same exactly if they skipped the same words
at the same positions. If the path has no line feed, there are as many lines as words. -/
theorem errors_faithful (succeeds : tree.Succeeds arguments source content compiled) :
    (tree.run .off arguments).1.errors =
      String.join (compiled.diagnostics.map fun diagnostic =>
        source ++ ":" ++ toString diagnostic.position.line ++ ":" ++
          toString diagnostic.position.column ++ ": Unrecognized token: " ++
            diagnostic.word.text ++ "\n") ∧
    compiled.diagnostics = (Word.skippedOf content).map .unrecognized ∧
    (∀ other otherArguments otherContent otherCompiled,
      Succeeds other otherArguments source otherContent otherCompiled →
        ((tree.run .off arguments).1.errors = (other.run .off otherArguments).1.errors ↔
          Word.skippedOf content = Word.skippedOf otherContent)) ∧
    ('\n' ∉ source.toList →
      (tree.run .off arguments).1.errors.toList.count '\n' = (Word.skippedOf content).length) := by
  have inline : ∀ bytes, ∀ word ∈ Word.skippedOf bytes, '\n' ∉ word.text.toList :=
    fun _ _ there => Word.inline_of_mem_skippedOf there
  refine ⟨?_, succeeds.diagnostics_eq, ?_, ?_⟩
  · rw [succeeds.errors_eq, ← succeeds.diagnostics_eq, Report.diagnosticLines_eq_join]
    congr 2
    funext diagnostic
    exact Report.diagnosticLine_eq source diagnostic
  · intro other otherArguments otherContent otherCompiled succeedsOther
    rw [succeeds.errors_eq, succeedsOther.errors_eq]
    constructor
    · exact Report.diagnosticLines_injective (inline content) (inline otherContent)
    · intro same
      rw [same]
  · intro path
    rw [succeeds.errors_eq, Report.count_diagnosticLines path (inline content)]

/-- A working directory with a source whose name looks like an option and has a colon in it. -/
def labelled (content : List UInt8) : Tree :=
  Tree.empty.withFile "-a:1" content

/-- A word with a colon and a control character, a literal between them. -/
def controlSource : List UInt8 :=
  "x:2 7 \x07".toUTF8.data.toList

/-- The same words in two lines. -/
def controlLines : List UInt8 :=
  "x:2 7\n\x07".toUTF8.data.toList

/-- The two words are reported on two lines, and differently if they stand in two lines. -/
theorem errors_faithful_control :
    ((labelled controlSource).run .off ["--", "-a:1"]).1.errors =
      "-a:1:1:1: Unrecognized token: x:2\n-a:1:1:7: Unrecognized token: \x07\n" ∧
    ((labelled controlSource).run .off ["--", "-a:1"]).1.errors.toList.count '\n' = 2 ∧
    ((labelled controlSource).run .off ["--", "-a:1"]).1.errors ≠
      ((labelled controlLines).run .off ["--", "-a:1"]).1.errors := by
  have words : Word.allOfBytes controlSource =
      [⟨"x:2", ⟨1, 1⟩⟩, ⟨"7", ⟨1, 5⟩⟩, ⟨"\x07", ⟨1, 7⟩⟩] := by
    rw [Word.allOfBytes_eq_scan]
    decide
  have lines : Word.allOfBytes controlLines =
      [⟨"x:2", ⟨1, 1⟩⟩, ⟨"7", ⟨1, 5⟩⟩, ⟨"\x07", ⟨2, 1⟩⟩] := by
    rw [Word.allOfBytes_eq_scan]
    decide
  have skipped : Word.skippedOf controlSource = [⟨"x:2", ⟨1, 1⟩⟩, ⟨"\x07", ⟨1, 7⟩⟩] := by
    rw [Word.skippedOf, words]
    decide
  have skippedLines : Word.skippedOf controlLines = [⟨"x:2", ⟨1, 1⟩⟩, ⟨"\x07", ⟨2, 1⟩⟩] := by
    rw [Word.skippedOf, lines]
    decide
  have named : Invocation.ofArguments ["--", "-a:1"] = .compile "-a:1" := by decide
  have made : ∀ content, (∀ word ∈ Word.allOfBytes content, word.Fits) →
      (Compilation.ofBytes content).outcome =
        .ok (Compilation.ofFitting (Word.allOfBytes content)) :=
    fun content fit => (Compilation.outcome_ofWords_eq_ok_iff _ _).mpr ⟨fit, rfl⟩
  have succeeds : (labelled controlSource).Succeeds ["--", "-a:1"] "-a:1" controlSource
      (Compilation.ofFitting (Word.allOfBytes controlSource)) :=
    ⟨named, rfl, made _ (by rw [words]; decide), ⟨_, rfl⟩⟩
  have succeedsLines : (labelled controlLines).Succeeds ["--", "-a:1"] "-a:1" controlLines
      (Compilation.ofFitting (Word.allOfBytes controlLines)) :=
    ⟨named, rfl, made _ (by rw [lines]; decide), ⟨_, rfl⟩⟩
  obtain ⟨errors, diagnostics, differ, count⟩ := errors_faithful succeeds
  refine ⟨?_, ?_, ?_⟩
  · rw [errors, diagnostics, skipped]
    decide
  · rw [count (by decide), skipped]
    rfl
  · rw [Ne, differ _ _ _ _ succeedsLines, skipped, skippedLines]
    decide

end Tree

end ForthAsm
