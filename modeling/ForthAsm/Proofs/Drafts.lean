import ForthAsm.Proofs.Lowering

/-!
# Drafts that are used on after failures

Words can be taken one after the other without looking at what becomes of each. A word that
fails leaves the draft as it was, so the draft is in the end what the words that did not fail
make of it, and nothing of a failure is seen in what follows it.

Whether a word fails is decided by the word alone: it fails exactly if it does not fit. So the
draft after some words has a closed form, `Draft.takeEach_eq_behind`, and the counts and the
growth of a draft are read off that form.

Main statement: `Draft.takeEach_of_failures`.
-/

namespace ForthAsm

namespace Draft

/-- The draft after words were taken one after the other, whether they failed or not. -/
def takeEach (draft : Draft) (words : List Word) : Draft :=
  words.foldl (fun draft word => (draft.take word).2) draft

/-- The words that did not fail when words were taken one after the other. -/
def accepted (draft : Draft) : List Word → List Word
  | [] => []
  | word :: words =>
    match draft.take word with
    | (.error _, later) => later.accepted words
    | (.ok _, later) => word :: later.accepted words

/-- A word that does not fit is a failure and leaves the draft as it was. -/
theorem take_of_not_fits {word : Word} (large : ¬word.Fits) (draft : Draft) :
    draft.take word = (.error (.literalOutOfRange word), draft) := by
  rw [take, Instruction.ofWord_of_not_fits large]

/-- The numbers drawn so far, counted without a limit. -/
theorem loops_eq_ofNat (draft : Draft) :
    draft.loops = ⟨UInt32.ofNat draft.loops.drawn.toNat⟩ := by
  rw [UInt32.ofNat_toNat]

/-- The words that do not fail are those that fit. -/
theorem accepted_eq_filter (draft : Draft) (words : List Word) :
    draft.accepted words = words.filter fun word => word.Fits := by
  induction words generalizing draft with
  | nil => rfl
  | cons word words ih =>
    by_cases fits : word.Fits
    · rw [accepted, take_of_fits draft.loops_eq_ofNat fits, List.filter_cons_of_pos (by simpa)]
      simp only [ih]
    · rw [accepted, take_of_not_fits fits, List.filter_cons_of_neg (by simpa)]
      simp only [ih]

/-- No words lead nowhere. -/
theorem behind_nil {draft : Draft} {before : Nat}
    (drawn : draft.loops = ⟨UInt32.ofNat before⟩) : draft.behind before [] = draft := by
  simp [behind, Instruction.sequence, Program.ofInstructions, Word.dumps, ← drawn]

/-- Words that are taken one after the other lead as far as those among them that fit. -/
theorem takeEach_eq_behind {draft : Draft} {before : Nat}
    (drawn : draft.loops = ⟨UInt32.ofNat before⟩) (words : List Word) :
    draft.takeEach words = draft.behind before (words.filter fun word => word.Fits) := by
  induction words generalizing draft before with
  | nil => exact (behind_nil drawn).symm
  | cons word words ih =>
    rw [takeEach, List.foldl_cons, ← takeEach]
    by_cases fits : word.Fits
    · have later : (draft.behind before [word]).loops =
          ⟨UInt32.ofNat (before + if word.isDump then 1 else 0)⟩ := by
        simp [behind, Word.dumps]
      rw [take_of_fits drawn fits, ih later, behind_cons, List.filter_cons_of_pos (by simpa)]
    · rw [take_of_not_fits fits, ih drawn, List.filter_cons_of_neg (by simpa)]

/-- Every word that fits either has a block or is reported. -/
theorem size_behind (draft : Draft) (before : Nat) (words : List Word) :
    (draft.behind before words).program.size + (draft.behind before words).diagnostics.size =
      draft.program.size + draft.diagnostics.size + words.length := by
  have each : ((Instruction.sequence before words).filterMap Block.ofInstruction?).length +
      (words.filter Word.isUnrecognized).length = words.length := by
    induction words generalizing before with
    | nil => rfl
    | cons word words ih =>
      have others := ih (before + if word.isDump then 1 else 0)
      have without := Instruction.ofInstruction?_ofText before word
      rw [Instruction.sequence, List.filterMap_cons, List.filter_cons, ← without,
        List.length_cons]
      cases Block.ofInstruction? (Instruction.ofText before word.text) with
      | none =>
        simp only [Option.isNone_none, ↓reduceIte, List.length_cons]
        omega
      | some block =>
        simp only [Option.isNone_some, Bool.false_eq_true, ↓reduceIte, List.length_cons]
        omega
  simp only [behind, Program.size, Program.ofInstructions, Array.size_append, List.size_toArray,
    List.length_map]
  omega

/-- Later words leave what is in a draft where it is. -/
theorem prefix_behind (draft : Draft) (before : Nat) (words : List Word) :
    draft.program.blocks.toList <+: (draft.behind before words).program.blocks.toList ∧
      draft.diagnostics.toList <+: (draft.behind before words).diagnostics.toList := by
  simp [behind]

end Draft

/-- A word that asks for a dump fits. -/
theorem Word.fits_of_isDump {word : Word} (dump : word.isDump = true) : word.Fits := by
  intro digits
  rw [beq_iff_eq.mp dump] at digits
  exact absurd digits Instruction.not_isDigits_dumpName

/-- The words that fit ask for as many dumps as all words. -/
theorem Word.dumps_filter_fits (words : List Word) :
    dumps (words.filter fun word => word.Fits) = dumps words := by
  rw [dumps, List.countP_filter, dumps]
  apply List.countP_congr
  intro word _
  simp only [Bool.and_eq_true, decide_eq_true_eq, and_iff_left_iff_imp]
  exact fits_of_isDump

namespace Draft

/-- Words are taken one after the other, and those behind a part of them start from the draft
after that part. -/
theorem takeEach_append (draft : Draft) (words others : List Word) :
    draft.takeEach (words ++ others) = (draft.takeEach words).takeEach others :=
  List.foldl_append

/-- The counts of a draft after some words, as long as the loop numbers last. -/
theorem counts_takeEach {words : List Word} (few : Word.dumps words < UInt32.size) :
    (fresh.takeEach words).program.size + (fresh.takeEach words).diagnostics.size =
        (fresh.accepted words).length ∧
      (fresh.takeEach words).loops.drawn.toNat = Word.dumps words := by
  have drawn : fresh.loops = ⟨UInt32.ofNat 0⟩ := rfl
  rw [takeEach_eq_behind drawn, accepted_eq_filter]
  constructor
  · rw [size_behind]
    simp [fresh, Program.empty, Program.size]
  · rw [behind, Word.dumps_filter_fits, Nat.zero_add, UInt32.toNat_ofNat']
    exact Nat.mod_eq_of_lt few

/-- Words are taken one after the other on one draft, and no failure is looked at. A failing
word leaves the draft as it was, so the draft becomes what the words that did not fail make of
it on their own, all of which are accepted again. After every part of the words each word that
did not fail has a block or a diagnostic, the loop numbers are those of the dumps so far, and
later words only add behind what is there. -/
theorem takeEach_of_failures {words : List Word} (few : Word.dumps words < UInt32.size) :
    (∀ before word after failure later, words = before ++ word :: after →
      (fresh.takeEach before).take word = (.error failure, later) →
        later = fresh.takeEach before) ∧
    (fresh.takeAll #[] (fresh.accepted words)).outcome = .ok (fresh.takeEach words) ∧
    (∀ earlier, earlier <+: words →
      (fresh.takeEach earlier).program.size + (fresh.takeEach earlier).diagnostics.size =
          (fresh.accepted earlier).length ∧
        (fresh.takeEach earlier).loops.drawn.toNat = Word.dumps earlier) ∧
    ∀ earlier later, earlier <+: later → later <+: words →
      (fresh.takeEach earlier).program.blocks.toList <+:
          (fresh.takeEach later).program.blocks.toList ∧
        (fresh.takeEach earlier).diagnostics.toList <+:
          (fresh.takeEach later).diagnostics.toList := by
  have drawn : fresh.loops = ⟨UInt32.ofNat 0⟩ := rfl
  refine ⟨?_, ?_, ?_, ?_⟩
  · intro before word after failure later _ failed
    exact take_eq_of_error failed
  · rw [accepted_eq_filter, takeEach_eq_behind drawn]
    apply outcome_takeAll_of_fits drawn
    intro word there
    simpa using (List.mem_filter.mp there).2
  · intro earlier part
    have fewer : Word.dumps earlier ≤ Word.dumps words := part.sublist.countP_le
    exact counts_takeEach (Nat.lt_of_le_of_lt fewer few)
  · rintro earlier _ ⟨added, rfl⟩ _
    rw [takeEach_append, takeEach_eq_behind (loops_eq_ofNat (fresh.takeEach earlier)) added]
    exact prefix_behind _ _ _

/-- A dump, a literal that does not fit, a word without a meaning and another dump. -/
def interruptedWords : List Word :=
  [⟨".s", ⟨1, 1⟩⟩, ⟨"18446744073709551616", ⟨1, 4⟩⟩, ⟨"frobnicate", ⟨2, 1⟩⟩, ⟨".s", ⟨2, 12⟩⟩]

/-- The literal in the middle fails and is seen nowhere: the three other words make the same
draft, and the second dump has the next loop number. -/
theorem takeEach_of_failures_interrupted :
    (fresh.takeAll #[] [⟨".s", ⟨1, 1⟩⟩, ⟨"frobnicate", ⟨2, 1⟩⟩, ⟨".s", ⟨2, 12⟩⟩]).outcome =
        .ok (fresh.takeEach interruptedWords) ∧
      (fresh.takeEach interruptedWords).loops.drawn.toNat = 2 ∧
      (fresh.takeEach interruptedWords).program.blocks.toList =
        [⟨Block.dumpStack ⟨0⟩⟩, ⟨Block.dumpStack ⟨1⟩⟩] := by
  obtain ⟨-, finished, counts, -⟩ :=
    takeEach_of_failures (show Word.dumps interruptedWords < UInt32.size by decide)
  have two : Word.dumps interruptedWords = 2 := by decide
  rw [← two]
  refine ⟨finished, (counts interruptedWords List.prefix_rfl).2, ?_⟩
  rw [takeEach_eq_behind (show fresh.loops = ⟨UInt32.ofNat 0⟩ from rfl)]
  decide

end Draft

end ForthAsm
