import ForthAsm.CommandLine.Report
import ForthAsm.Proofs.Files
import ForthAsm.Proofs.Settings

/-!
# The log and the rest of a report

The setting of the log decides about the log lines on the error stream and about nothing else:
the status, the standard output, the files and everything that is said after the log lines are
those of a run whose log is off. A log line is the message of its record without what a terminal
would take for orders, so a message of shown characters stands on its line as it is, and a word
that starts a command to the terminal takes the end of its line with it.

Main statements: `Tree.run_eq_off`, what the setting of the log adds to a run,
`Tree.run_of_choice`, the whole of a run with a setting of a common kind, and
`Tree.errors_commanding`, a log line that is not its message.
-/

namespace ForthAsm

namespace Plain

/-- What a terminal shows is a shown character. -/
theorem isShown_of_shows {terminal : Terminal} {character : Char}
    (shows : terminal.shows character) : isShown character := by
  rw [Terminal.shows, Bool.or_eq_true, Bool.and_eq_true] at shows
  rcases shows with text | sequence
  · exact text.2
  · cases mode : terminal.mode <;> simp_all [Mode.shows, isShown]

/-- What a terminal writes of some characters: some of them, in their order, all shown. -/
theorem exists_kept (characters : List Char) (terminal : Terminal) (written : String) :
    ∃ kept : List Char,
      (characters.foldl Terminal.step (terminal, written)).2 = written ++ String.ofList kept ∧
        kept.Sublist characters ∧ ∀ character ∈ kept, isShown character := by
  induction characters generalizing terminal written with
  | nil => exact ⟨[], by simp, List.Sublist.slnil, by simp⟩
  | cons character characters ih =>
    obtain ⟨kept, result, part, shown⟩ :=
      ih (terminal.next character)
        (if terminal.shows character then written.push character else written)
    by_cases shows : terminal.shows character
    · refine ⟨character :: kept, ?_, part.cons_cons character, ?_⟩
      · rw [List.foldl_cons, Terminal.step, result, if_pos shows]
        simp [← String.toList_inj]
      · simpa using ⟨isShown_of_shows shows, shown⟩
    · refine ⟨kept, ?_, part.cons character, shown⟩
      rw [List.foldl_cons, Terminal.step, result, if_neg shows]

/-- A stripped text holds some of the characters, in their order, all shown. -/
theorem sublist_strip (text : String) :
    (strip text).toList.Sublist text.toList ∧
      ∀ character ∈ (strip text).toList, isShown character := by
  obtain ⟨kept, result, part, shown⟩ := exists_kept text.toList .fresh ""
  have stripped : (strip text).toList = kept := by
    rw [strip, result]
    simp
  rw [stripped]
  exact ⟨part, shown⟩

/-- Outside of sequences a terminal writes the shown characters, and without an escape character
no sequence starts. -/
theorem written_of_text (characters : List Char) {terminal : Terminal} (written : String)
    (outside : terminal.mode = .text) (plain : '\x1b' ∉ characters) :
    (characters.foldl Terminal.step (terminal, written)).2 =
      written ++ String.ofList (characters.filter isShown) := by
  induction characters generalizing terminal written with
  | nil => simp
  | cons character characters ih =>
    rw [List.mem_cons, not_or] at plain
    -- Only an escape character leads out of the text; a character of several bytes leads back.
    have still : (terminal.next character).mode = .text := by
      unfold Terminal.next
      split
      · split
        · exact outside
        · rfl
      · simp [Mode.next, outside, Ne.symm plain.1]
    have shows : terminal.shows character = isShown character := by
      simp only [Terminal.shows, Mode.shows, outside]
      cases terminal.showing <;> simp
    rw [List.foldl_cons, Terminal.step, ih _ still plain.2, shows]
    by_cases shown : isShown character
    · simp [shown, ← String.toList_inj]
    · simp [shown]

/-- A text without escape characters keeps its shown characters. -/
theorem strip_of_not_mem {text : String} (plain : '\x1b' ∉ text.toList) :
    strip text = String.ofList (text.toList.filter isShown) := by
  rw [strip, written_of_text text.toList "" rfl plain, String.empty_append]

end Plain

/-- A line shows the message of a record, without what a terminal would take for orders. -/
structure Record.WrittenAs (record : Record) (line : String) : Prop where
  /-- A message of shown characters stands on its line as it is. -/
  whole : (∀ character ∈ record.message.toList, Plain.isShown character) →
    line = record.message ++ "\n"
  /-- A message without escape characters lacks only those characters that are not shown. -/
  plain : '\x1b' ∉ record.message.toList →
    line = String.ofList (record.message.toList.filter Plain.isShown) ++ "\n"
  /-- Nothing is added to a message and its line feed, and nothing moved. -/
  part : line.toList.Sublist (record.message ++ "\n").toList
  /-- All characters of a line are shown. -/
  shown : ∀ character ∈ line.toList, Plain.isShown character

namespace Filter

/-- The line of a record shows its message. -/
theorem writtenAs_line (record : Record) : record.WrittenAs (line record) where
  whole shown := by
    apply Plain.strip_eq_self
    intro character there
    rw [String.toList_append, List.mem_append] at there
    rcases there with inside | feed
    · exact shown character inside
    · rw [List.mem_singleton.mp feed]
      rfl
  plain absent := by
    have whole : '\x1b' ∉ (record.message ++ "\n").toList := by
      simpa using absent
    have feed : Plain.isShown '\n' := rfl
    rw [line, Plain.strip_of_not_mem whole]
    simp [feed]
  part := (Plain.sublist_strip _).1
  shown := (Plain.sublist_strip _).2

/-- A report joins the lines of the records that are shown. -/
theorem report_eq_join (filter : Filter) (log : Array Record) :
    filter.report log = String.join ((log.toList.filter filter.admits).map line) := by
  rw [report, String.join, List.foldl_map]

end Filter

/-- A filter adds its log lines before what is said without them, and changes nothing else of the
report on a compilation. -/
theorem Report.ofCompilation_of_silent {silent : Filter} (nothing : ∀ log, silent.report log = "")
    (filter : Filter) (source : String) (result : Logged (Except CompileFailure Compilation)) :
    ofCompilation filter source result =
      { ofCompilation silent source result with
        errors := filter.report result.log ++ (ofCompilation silent source result).errors } := by
  unfold ofCompilation
  cases result.outcome with
  | ok compiled => simp [nothing]
  | error failure => simp [nothing, String.append_assoc]

namespace Setting

/-- The setting that turns the log off. -/
def off : Setting :=
  ofText (some "off")

/-- The setting that turns the log off has one rule, which is off. -/
theorem off_eq : off = ⟨⟨[⟨none, none⟩], none⟩, []⟩ := by
  have spelled : Spells "off" none := by decide
  rw [off, ofText, Option.getD_some, parse_level spelled]

/-- A log that is off has nothing to report. -/
theorem report_off (log : Array Record) : off.filter.report log = "" := by
  rw [off_eq]
  exact Filter.report_of_off (by simp) log

/-- Nothing is warned about in the setting that turns the log off. -/
theorem warnings_off : off.warnings = "" := by
  rw [off_eq]
  rfl

end Setting

namespace Tree

/-- What is logged when a command line is followed, in logging order. -/
def records (tree : Tree) (arguments : List String) : List Record :=
  match Invocation.ofArguments arguments with
  | .compile source => (tree.compile source Usage.outputPath).1.log.toList
  | _ => []

/-- What is said about a command line in a tree, and the tree after it. -/
theorem run_eq (tree : Tree) (setting : Setting) (arguments : List String) :
    tree.run setting arguments =
      match Invocation.ofArguments arguments with
      | .compile source =>
        ((Report.ofCompilation setting.filter source
          (tree.compile source Usage.outputPath).1).warned setting,
            (tree.compile source Usage.outputPath).2)
      | .help => (Report.help.warned setting, tree)
      | .version => (Report.version.warned setting, tree)
      | .misuse problem => ((Report.ofMisuse problem).warned setting, tree) := by
  rw [run, FileSystem.run]
  cases Invocation.ofArguments arguments <;> rfl

/-- The setting of the log adds its warnings and log lines before what is said without a log, and
changes nothing else of a run. -/
theorem run_eq_off (tree : Tree) (setting : Setting) (arguments : List String) :
    tree.run setting arguments =
      ({ (tree.run .off arguments).1 with
          errors := setting.warnings ++
            String.join (((tree.records arguments).filter setting.filter.admits).map Filter.line) ++
              (tree.run .off arguments).1.errors },
        (tree.run .off arguments).2) := by
  rw [run_eq, run_eq, records]
  cases Invocation.ofArguments arguments with
  | compile source =>
    simp only [Report.ofCompilation_of_silent Setting.report_off setting.filter, Report.warned,
      Setting.warnings_off, Filter.report_eq_join, String.empty_append, String.append_assoc]
  | help => simp [Report.warned, Report.help, Setting.warnings_off]
  | version => simp [Report.warned, Report.version, Setting.warnings_off]
  | misuse problem => simp [Report.warned, Report.ofMisuse, Setting.warnings_off]

/-- How following a command line has to end. A compilation that succeeds ends with status 0,
whatever words it skipped, and leaves its program; everything else leaves the files as they were,
with status 1 after a compilation that fails and 2 after a misuse. -/
def Ends (tree : Tree) (arguments : List String) (status : UInt8) (files : Tree) : Prop :=
  match Invocation.ofArguments arguments with
  | .compile source =>
    match (tree.compile source Usage.outputPath).1.outcome with
    | .ok compiled =>
      status = 0 ∧ files.read Usage.outputPath = .ok compiled.assembly.toUTF8.toList
    | .error _ => status = 1 ∧ files = tree
  | .help | .version => status = 0 ∧ files = tree
  | .misuse _ => status = 2 ∧ files = tree

/-- A run ends as it has to, whatever the setting of the log is. -/
theorem ends_run (tree : Tree) (setting : Setting) (arguments : List String) :
    tree.Ends arguments (tree.run setting arguments).1.status
      (tree.run setting arguments).2 := by
  rw [Ends, run_eq]
  cases Invocation.ofArguments arguments with
  | compile source =>
    have files := tree.files_compile source Usage.outputPath
    simp only [Report.warned, Report.ofCompilation]
    cases ended : (tree.compile source Usage.outputPath).1.outcome with
    | ok compiled =>
      rw [ended] at files
      exact ⟨rfl, files⟩
    | error failure =>
      rw [ended] at files
      exact ⟨rfl, files⟩
  | help | version | misuse => exact ⟨rfl, rfl⟩

/-- The error stream with a setting of a common kind. -/
theorem errors_of_choice (tree : Tree) (choice : Setting.Choice) (arguments : List String) :
    (tree.run (.ofText choice.text) arguments).1.errors =
      String.join (((tree.records arguments).filter choice.selects).map Filter.line) ++
        (tree.run .off arguments).1.errors := by
  have selected : (Setting.ofText choice.text).filter.admits = choice.selects :=
    funext choice.admits_eq
  rw [run_eq_off, choice.warnings_eq, selected, String.empty_append]

/-- A setting of a common kind puts the lines of the records that it selects, in logging order,
before what is said without a log. Status, standard output and files are those without a log, and
they are what the command line has to end with. -/
theorem run_of_choice (tree : Tree) (choice : Setting.Choice) (arguments : List String) :
    let quiet := tree.run .off arguments
    let shown := tree.run (.ofText choice.text) arguments
    shown.1.status = quiet.1.status ∧ shown.1.output = quiet.1.output ∧ shown.2 = quiet.2 ∧
      shown.1.errors =
        String.join (((tree.records arguments).filter choice.selects).map Filter.line) ++
          quiet.1.errors ∧
      (∀ record, Record.WrittenAs record (Filter.line record)) ∧
      tree.Ends arguments shown.1.status shown.2 := by
  refine ⟨?_, ?_, ?_, errors_of_choice tree choice arguments, Filter.writtenAs_line,
    ends_run tree (.ofText choice.text) arguments⟩
  all_goals rw [run_eq_off]

/-- A working directory whose source starts a command to the terminal. -/
def commanding : Tree :=
  Tree.empty.withFile "prog.fs" [0x1b, 0x5d]

/-- The error stream does not hold the messages themselves: what the terminal would take for a
command is missing, and so is the end of its line. -/
theorem errors_commanding :
    let choice : Setting.Choice := .level "debug" (some .debug) (by decide)
    (commanding.run (.ofText choice.text) ["prog.fs"]).1.errors ≠
      String.join (((commanding.records ["prog.fs"]).filter choice.selects).map
        fun record => record.message ++ "\n") ++
          (commanding.run .off ["prog.fs"]).1.errors := by
  decide +kernel

end Tree

end ForthAsm
