import ForthAsm.Files.Artifact
import ForthAsm.Proofs.Lowering
import ForthAsm.Proofs.Trees

/-!
# Compiling a file to a file

Three things can go wrong when a file is compiled, and they are met in a fixed order: the source
cannot be opened or read, one of its literals does not fit, the output cannot be opened for
writing. Each of them leaves all files as they were. If none does, the output holds the program
and nothing else, and no other place has changed, also where the output is the source itself.

Nothing is said here about when a file can be opened. A file system only has to keep to
`FileSystem.Lawful`: reading changes nothing and delivers what the file holds or breaks off, and
opening a file for writing fails without effect or leaves an empty file, to which bytes can be
written. Trees of files keep to it, whatever their guards refuse.

Main statement: `FileSystem.compile_ending`, the outcome of a compilation and the files after it,
for every lawful file system.
-/

namespace ForthAsm

namespace FileSystem

variable {State Handle Place : Type} {system : FileSystem (StateM State) Handle}
  {view : View State Place} {state : State} {path source output : String}

/-- A source cannot be opened, or reading it breaks off. -/
def CannotRead (system : FileSystem (StateM State) Handle) (state : State) (path : String)
    (cause : IoFailure) : Prop :=
  ((system.openSource path).run state).1 = .error cause ∨
    ∃ deliveries, ((system.openSource path).run state).1 = .ok deliveries ∧
      Delivery.BreakOff deliveries cause

/-- A source is a file with a content, and it is delivered to its end. -/
def CanRead (system : FileSystem (StateM State) Handle) (view : View State Place) (state : State)
    (path : String) (content : List UInt8) : Prop :=
  ∃ deliveries place, ((system.openSource path).run state).1 = .ok deliveries ∧
    view.place? state path = some place ∧ view.node? state place = some (.file content) ∧
      Delivery.HandOver deliveries content

/-- How a compilation ends, as its outcome and the state after it. The failures exclude each other
and are met in their order here. -/
structure Ending (system : FileSystem (StateM State) Handle) (view : View State Place)
    (state : State) (source output : String) (outcome : Except CompileFailure Compilation)
    (after : State) : Prop where
  /-- A source can be read or it cannot. -/
  decided : (∃ cause, system.CannotRead state source cause) ∨
    ∃ content, system.CanRead view state source content
  /-- A directory cannot be read. -/
  directory : ∀ place, view.place? state source = some place →
    view.node? state place = some .directory → ∃ cause, system.CannotRead state source cause
  /-- A source that cannot be read is the failure, and all is as before. -/
  unread : ∀ cause, system.CannotRead state source cause →
    outcome = .error (.readSource source cause) ∧ after = state
  /-- Otherwise the first literal that is too large is the failure, and all is as before. -/
  large : ∀ content before word rest, system.CanRead view state source content →
    Word.allOfBytes content = before ++ word :: rest → (∀ other ∈ before, ¬other.IsTooLarge) →
      word.IsTooLarge → outcome = .error (.literalOutOfRange word) ∧ after = state
  /-- Otherwise an output that cannot be opened for writing is the failure, and all is as
  before. -/
  unwritten : ∀ content cause, system.CanRead view state source content →
    (∀ word ∈ Word.allOfBytes content, ¬word.IsTooLarge) →
      ((system.create output).run state).1 = .error cause →
        outcome = .error (.writeOutput output cause) ∧ after = state
  /-- Otherwise the content that the source had is compiled, the output holds the bytes of the
  program and nothing else, and no other place has changed. -/
  written : ∀ content handle, system.CanRead view state source content →
    (∀ word ∈ Word.allOfBytes content, ¬word.IsTooLarge) →
      ((system.create output).run state).1 = .ok handle → ∃ compiled place,
        outcome = .ok compiled ∧ (Compilation.ofBytes content).outcome = .ok compiled ∧
          view.Replaced state after output place compiled.assembly.toUTF8.toList

/-- The words of a file are those that its deliveries have, if it is opened. -/
theorem run_words (system : FileSystem (StateM State) Handle) (path : String) (state : State) :
    (system.words path).run state =
      (((system.openSource path).run state).1 >>=
        fun deliveries => (Stream.ofDeliveries deliveries).words,
        ((system.openSource path).run state).2) := by
  rw [words, StateT.run_bind]
  obtain ⟨opened, later⟩ := (system.openSource path).run state
  cases opened <;> rfl

/-- A file whose deliveries break off has no words. -/
theorem run_words_of_cannotRead (lawful : system.Lawful view) {cause : IoFailure}
    (unread : system.CannotRead state path cause) :
    (system.words path).run state = (.error cause, state) := by
  rw [run_words, lawful.unchanged]
  rcases unread with refused | ⟨deliveries, opened, parts, content, rest, rfl, carries⟩
  · rw [refused]
    rfl
  · rw [opened]
    exact congrArg (·, state) (Stream.words_of_failure carries cause rest)

/-- A file that is delivered to its end has the words of its content. -/
theorem run_words_of_canRead (lawful : system.Lawful view) {content : List UInt8}
    (readable : system.CanRead view state path content) :
    (system.words path).run state = (.ok (Word.allOfBytes content), state) := by
  obtain ⟨deliveries, place, opened, -, -, parts, rest, rfl, carries, ends⟩ := readable
  rw [run_words, lawful.unchanged, opened]
  exact congrArg (·, state) (Stream.words_of_carries carries ends)

/-- A file that is not opened for writing is not written. -/
theorem run_write_of_error {cause : IoFailure}
    (refused : ((system.create path).run state).1 = .error cause) (content : List UInt8) :
    (system.write path content).run state =
      (.error cause, ((system.create path).run state).2) := by
  rw [write, StateT.run_bind]
  revert refused
  rcases (system.create path).run state with ⟨answer, later⟩
  rintro rfl
  rfl

/-- A file that is opened for writing is written as it was left by that. -/
theorem run_write_of_ok {handle : Handle}
    (opened : ((system.create path).run state).1 = .ok handle) (content : List UInt8) :
    (system.write path content).run state =
      (system.append handle content).run ((system.create path).run state).2 := by
  rw [write, StateT.run_bind]
  revert opened
  rcases (system.create path).run state with ⟨answer, later⟩
  rintro rfl
  rfl

/-- A compilation reads the words of its source and then writes its program. -/
theorem run_compile (system : FileSystem (StateM State) Handle) (source output : String)
    (state : State) :
    (system.compile source output).run state =
      (system.emit output (Compilation.ofReading source ((system.words source).run state).1)).run
        ((system.words source).run state).2 := rfl

/-- A source that does not give a compilation ends it before anything is written. -/
theorem run_compile_of_failure {reading : Except IoFailure (List Word)} {failure : CompileFailure}
    (read : (system.words source).run state = (reading, state))
    (failed : (Compilation.ofReading source reading).outcome = .error failure) :
    ((system.compile source output).run state).1.outcome = .error failure ∧
      ((system.compile source output).run state).2 = state := by
  rw [run_compile, read]
  revert failed
  rcases Compilation.ofReading source reading with ⟨outcome, log⟩
  rintro rfl
  exact ⟨rfl, rfl⟩

/-- A source that gives a compilation has its program written. -/
theorem run_compile_of_made {reading : Except IoFailure (List Word)} {compiled : Compilation}
    (read : (system.words source).run state = (reading, state))
    (made : (Compilation.ofReading source reading).outcome = .ok compiled) (output : String) :
    let wrote := (system.write output compiled.assembly.toUTF8.toList).run state
    ((system.compile source output).run state).1.outcome =
        ((compiled.artifact output).outcome wrote.1).outcome.map (fun _ => compiled) ∧
      ((system.compile source output).run state).2 = wrote.2 := by
  rw [run_compile, read]
  revert made
  rcases Compilation.ofReading source reading with ⟨outcome, log⟩
  rintro rfl
  exact ⟨rfl, rfl⟩

namespace Lawful

variable {content : List UInt8}

/-- A source can be read or it cannot. -/
theorem cannotRead_or_canRead (lawful : system.Lawful view) (state : State) (path : String) :
    (∃ cause, system.CannotRead state path cause) ∨
      ∃ content, system.CanRead view state path content := by
  cases opened : ((system.openSource path).run state).1 with
  | error cause => exact .inl ⟨cause, .inl opened⟩
  | ok deliveries =>
    rcases lawful.delivered path state deliveries opened with
      ⟨cause, broken⟩ | ⟨place, content, leads, holds, whole⟩
    · exact .inl ⟨cause, .inr ⟨deliveries, opened, broken⟩⟩
    · exact .inr ⟨content, deliveries, place, opened, leads, holds, whole⟩

/-- A source that cannot be read ends the compilation. -/
theorem compile_of_cannotRead (lawful : system.Lawful view) {cause : IoFailure}
    (unread : system.CannotRead state source cause) (output : String) :
    ((system.compile source output).run state).1.outcome = .error (.readSource source cause) ∧
      ((system.compile source output).run state).2 = state :=
  run_compile_of_failure (run_words_of_cannotRead lawful unread) rfl

/-- A source that cannot be compiled ends the compilation. -/
theorem compile_of_failure (lawful : system.Lawful view)
    (readable : system.CanRead view state source content) {failure : CompileFailure}
    (failed : (Compilation.ofBytes content).outcome = .error failure) (output : String) :
    ((system.compile source output).run state).1.outcome = .error failure ∧
      ((system.compile source output).run state).2 = state :=
  run_compile_of_failure (run_words_of_canRead lawful readable) failed

/-- An output that is not opened for writing ends the compilation. -/
theorem compile_of_refused (lawful : system.Lawful view)
    (readable : system.CanRead view state source content) {compiled : Compilation}
    (made : (Compilation.ofBytes content).outcome = .ok compiled) {cause : IoFailure}
    (refused : ((system.create output).run state).1 = .error cause) :
    ((system.compile source output).run state).1.outcome = .error (.writeOutput output cause) ∧
      ((system.compile source output).run state).2 = state := by
  have written := run_compile_of_made (run_words_of_canRead lawful readable) made output
  rw [run_write_of_error refused, lawful.refused output state cause refused] at written
  exact written

/-- An output that is opened for writing holds the program in the end. -/
theorem compile_of_created (lawful : system.Lawful view)
    (readable : system.CanRead view state source content) {compiled : Compilation}
    (made : (Compilation.ofBytes content).outcome = .ok compiled) {handle : Handle}
    (opened : ((system.create output).run state).1 = .ok handle) :
    ((system.compile source output).run state).1.outcome = .ok compiled ∧
      ∃ place, view.Replaced state ((system.compile source output).run state).2 output place
        compiled.assembly.toUTF8.toList := by
  obtain ⟨place, emptied, writes⟩ := lawful.created output state handle opened
  obtain ⟨written, filled⟩ := writes compiled.assembly.toUTF8.toList
  obtain ⟨ended, files⟩ :=
    run_compile_of_made (run_words_of_canRead lawful readable) made output
  rw [run_write_of_ok opened] at ended files
  rw [written] at ended
  refine ⟨ended, place, ?_⟩
  rw [files]
  exact emptied.trans filled

end Lawful

/-- A file of a tree is delivered to its end if the guard of its place refuses nothing. -/
theorem canRead_of_free {guards : Location → Guard} {tree : Tree} {path : String}
    {place : Location} {content : List UInt8} (led : tree.locate path = .ok place)
    (stands : tree.find? place = some (.file content)) (free : guards place = .free) :
    (Tree.system guards).CanRead Tree.view tree path content := by
  have opened : tree.openSource guards path = .ok (Delivery.ofContent content) := by
    simp [Tree.openSource, led, stands, free, Guard.free, Node.deliveries]
  exact ⟨_, place, opened, Tree.place?_view_iff.mpr led, stands, Delivery.ofContent content, [],
    by simp, Delivery.carries_ofContent content, by simp⟩

/-- A compilation on a lawful file system ends in one of the four ways, whatever its files are and
wherever its paths lead. -/
theorem compile_ending (lawful : system.Lawful view) (state : State) (source output : String) :
    system.Ending view state source output
      ((system.compile source output).run state).1.outcome
      ((system.compile source output).run state).2 where
  decided := lawful.cannotRead_or_canRead state source
  directory place leads stands := by
    rcases lawful.cannotRead_or_canRead state source with unread |
      ⟨content, deliveries, other, -, led, holds, -⟩
    · exact unread
    · rw [leads, Option.some.injEq] at led
      simp [← led, stands] at holds
  unread cause unread := lawful.compile_of_cannotRead unread output
  large content before word rest readable whole small large := by
    have failed := Compilation.outcome_ofWords_of_large whole small large
    exact lawful.compile_of_failure readable failed output
  unwritten content cause readable small refused :=
    lawful.compile_of_refused readable (Compilation.outcome_ofWords_of_small small) refused
  written content handle readable small opened := by
    have made := Compilation.outcome_ofWords_of_small small
    obtain ⟨ended, place, replaced⟩ := lawful.compile_of_created readable made opened
    exact ⟨_, place, ended, made, replaced⟩

/-- Guards for a file that cannot be opened, a file that breaks off behind a literal that is too
large, and a file that cannot be written. -/
def benchGuards (location : Location) : Guard :=
  match location.names.getLast? with
  | some "secret.fs" => ⟨some (.other "Permission denied (os error 13)"), none, none⟩
  | some "broken.fs" => ⟨none, some (20, .other "Input/output error (os error 5)"), none⟩
  | some "locked.s" => ⟨none, none, some (.other "Read-only file system (os error 30)")⟩
  | _ => .free

/-- What the first file of the workbench holds. -/
def benchSource : List UInt8 :=
  "7 .".toUTF8.data.toList

/-- A source with a literal that is too large. -/
def benchLarge : List UInt8 :=
  "99999999999999999999 .".toUTF8.data.toList

/-- A working directory with the files of the guards, two others and a directory. -/
def bench : Tree :=
  (((((Tree.empty.withFile "a.fs" benchSource).withFile "large.fs" benchLarge).withFile
    "secret.fs" benchSource).withFile "broken.fs" benchLarge).withFile "locked.s"
      "old".toUTF8.data.toList).withDirectory "d"

/-- Compile a file of the workbench. -/
def benchCompile (source output : String) : Except CompileFailure Compilation × Tree :=
  let ended := ((Tree.system benchGuards).compile source output).run bench
  (ended.1.outcome, ended.2)

/-- What cannot be read is the failure before a literal that is too large is, and that before an
output that cannot be written; all of them leave the workbench as it is. A file that is compiled
onto itself, along a path that leaves the working directory, holds the program of what it held. -/
theorem compile_ending_bench :
    benchCompile "secret.fs" "locked.s" =
      (.error (.readSource "secret.fs" (.other "Permission denied (os error 13)")), bench) ∧
    benchCompile "broken.fs" "locked.s" =
      (.error (.readSource "broken.fs" (.other "Input/output error (os error 5)")), bench) ∧
    benchCompile "d" "locked.s" = (.error (.readSource "d" .isDirectory), bench) ∧
    benchCompile "large.fs" "locked.s" =
      (.error (.literalOutOfRange ⟨"99999999999999999999", ⟨1, 1⟩⟩), bench) ∧
    benchCompile "a.fs" "locked.s" =
      (.error (.writeOutput "locked.s" (.other "Read-only file system (os error 30)")), bench) ∧
    ∃ compiled, (benchCompile "a.fs" "../work/a.fs").1 = .ok compiled ∧
      (Compilation.ofBytes benchSource).outcome = .ok compiled ∧
      (benchCompile "a.fs" "../work/a.fs").2.read "a.fs" =
        .ok compiled.assembly.toUTF8.toList := by
  have ending := fun source output =>
    compile_ending (Tree.lawful_system benchGuards) bench source output
  have readable : (Tree.system benchGuards).CanRead Tree.view bench "a.fs" benchSource :=
    canRead_of_free (show bench.locate "a.fs" = .ok ⟨["home", "work", "a.fs"]⟩ from rfl) rfl rfl
  have readableLarge : (Tree.system benchGuards).CanRead Tree.view bench "large.fs" benchLarge :=
    canRead_of_free (show bench.locate "large.fs" = .ok ⟨["home", "work", "large.fs"]⟩ from rfl)
      rfl rfl
  have words : Word.allOfBytes benchSource = [⟨"7", ⟨1, 1⟩⟩, ⟨".", ⟨1, 3⟩⟩] := by
    rw [Word.allOfBytes_eq_scan]
    decide
  have wordsLarge : Word.allOfBytes benchLarge =
      [] ++ ⟨"99999999999999999999", ⟨1, 1⟩⟩ :: [⟨".", ⟨1, 22⟩⟩] := by
    rw [Word.allOfBytes_eq_scan]
    decide
  have small : ∀ word ∈ Word.allOfBytes benchSource, ¬word.IsTooLarge := by
    simp only [words, Word.not_isTooLarge_iff]
    decide
  refine ⟨?_, ?_, ?_, ?_, ?_, ?_⟩
  · exact Prod.ext_iff.mpr ((ending _ _).unread _ (.inl rfl))
  · refine Prod.ext_iff.mpr ((ending _ _).unread _ (.inr ⟨_, rfl, ?_⟩))
    exact ⟨[.bytes (benchLarge.take 20)], benchLarge.take 20, [], rfl, by decide, rfl⟩
  · refine Prod.ext_iff.mpr ((ending _ _).unread _ (.inr ⟨_, rfl, ?_⟩))
    exact ⟨[], [], [], rfl, by decide, rfl⟩
  · refine Prod.ext_iff.mpr ((ending _ _).large _ _ _ _ readableLarge wordsLarge (by simp) ?_)
    exact ⟨by decide, by decide⟩
  · exact Prod.ext_iff.mpr ((ending _ _).unwritten _ _ readable small rfl)
  · obtain ⟨compiled, place, ended, made, replaced⟩ :=
      (ending "a.fs" "../work/a.fs").written _ ⟨["home", "work", "a.fs"]⟩ readable small rfl
    refine ⟨compiled, ended, made, ?_⟩
    -- Both paths lead to the same place, before and after.
    have there := replaced.kept "../work/a.fs" ⟨["home", "work", "a.fs"]⟩ rfl
    rw [replaced.leads, Option.some.injEq] at there
    subst there
    exact Tree.read_of_view (replaced.kept "a.fs" _ rfl) replaced.holds

end FileSystem

namespace Tree

variable {tree : Tree} {path source output : String} {content : List UInt8} {place : Location}

/-- A file of a tree without guards that can be read is delivered to its end. -/
theorem canRead_of_read (holds : tree.read path = .ok content) :
    freeSystem.CanRead view tree path content := by
  unfold read at holds
  split at holds
  · contradiction
  · rename_i location led
    split at holds
    · rename_i found stands
      cases holds
      exact FileSystem.canRead_of_free led stands rfl
    · contradiction

/-- A place for writing in a tree without guards is opened. -/
theorem create_of_target (found : tree.target path = .ok place) :
    ((freeSystem.create path).run tree).1 = .ok place := by
  have opened : tree.create (fun _ => .free) path = (.ok place, tree.put place (.file [])) := by
    simp [create, found, Guard.free]
  exact congrArg Prod.fst opened

/-- A compilation that succeeds leaves its program in the output, and one that fails leaves the
files as they were. -/
theorem files_compile (tree : Tree) (source output : String) :
    match (tree.compile source output).1.outcome with
    | .ok compiled =>
      (tree.compile source output).2.read output = .ok compiled.assembly.toUTF8.toList
    | .error _ => (tree.compile source output).2 = tree := by
  have lawful : freeSystem.Lawful view := lawful_system fun _ => .free
  unfold compile
  rcases lawful.cannotRead_or_canRead tree source with ⟨cause, unread⟩ | ⟨content, readable⟩
  · obtain ⟨ended, files⟩ := lawful.compile_of_cannotRead unread output
    rw [ended]
    exact files
  · cases made : (Compilation.ofBytes content).outcome with
    | error failure =>
      obtain ⟨ended, files⟩ := lawful.compile_of_failure readable made output
      rw [ended]
      exact files
    | ok compiled =>
      cases opened : ((freeSystem.create output).run tree).1 with
      | error cause =>
        obtain ⟨ended, files⟩ := lawful.compile_of_refused readable made opened
        rw [ended]
        exact files
      | ok handle =>
        obtain ⟨ended, place, replaced⟩ := lawful.compile_of_created readable made opened
        rw [ended]
        exact read_of_view replaced.leads replaced.holds

end Tree

end ForthAsm
