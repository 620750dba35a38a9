import ForthAsm.Log.Setting
import ForthAsm.Proofs.Reading

/-!
# Common settings of the log

Most settings are of four kinds: none at all, an empty text, the name of a level in letters of
any case, and a target with such a name behind an equals sign. Each of them sets a filter of one
rule and is understood as a whole, so nothing is warned about, and which records it selects can
be said without its text.

Main statements: `Setting.ofText_choice`, the filter that a setting of a common kind sets, and
`Setting.Choice.admits_eq`, the records that it shows.
-/

namespace ForthAsm

namespace Blank

/-- Nothing is dropped before a character that is not blank. -/
theorem dropWhile_append_of_solid {front : List Char}
    (solid : ∀ character ∈ front, isBlank character = false) (some : front ≠ [])
    (back : List Char) : (front ++ back).dropWhile isBlank = front ++ back := by
  cases front with
  | nil => exact absurd rfl some
  | cons first others =>
    have visible := solid first List.mem_cons_self
    simp [visible]

/-- A text that ends in characters that are not blank loses its leading blanks only. -/
theorem trim_append (front : List Char) {back : List Char}
    (solid : ∀ character ∈ back, isBlank character = false) (some : back ≠ []) :
    trim (front ++ back) = front.dropWhile isBlank ++ back := by
  have kept : back.dropWhile isBlank = back := by
    simpa using dropWhile_append_of_solid solid some []
  -- Even where the front is all blanks, the left end stops at the first character of the back.
  have left : (front ++ back).dropWhile isBlank = front.dropWhile isBlank ++ back := by
    rw [List.dropWhile_append, kept]
    split
    · rename_i nothing
      rw [List.isEmpty_iff.mp nothing, List.nil_append]
    · rfl
  rw [trim, left, List.reverse_append, dropWhile_append_of_solid (by simpa using solid)
    (by simpa using some), ← List.reverse_append, List.reverse_reverse]

/-- A letter is not blank. -/
theorem isBlank_of_isAlpha {character : Char} (alpha : character.isAlpha) :
    isBlank character = false := by
  have range : 65 ≤ character.toNat ∧ character.toNat ≤ 90 ∨
      97 ≤ character.toNat ∧ character.toNat ≤ 122 := by
    rcases Bool.or_eq_true_iff.mp alpha with upper | lower
    · have bounds := of_decide_eq_true upper
      exact .inl ⟨UInt32.le_iff_toNat_le.mp bounds.1, UInt32.le_iff_toNat_le.mp bounds.2⟩
    · obtain ⟨low, high⟩ := Bool.and_eq_true_iff.mp lower
      exact .inr ⟨UInt32.le_iff_toNat_le.mp (of_decide_eq_true low),
        UInt32.le_iff_toNat_le.mp (of_decide_eq_true high)⟩
  simp only [isBlank, Bool.or_eq_false_iff, Bool.and_eq_false_iff, decide_eq_false_iff_not,
    beq_eq_false_iff_ne]
  omega

end Blank

/-- A character whose small form is a small letter is a letter. -/
theorem Letter.isAlpha_of_toLower {character : Char} (small : character.toLower.isLower) :
    character.isAlpha := by
  by_cases upper : character.val ≥ 'A'.val ∧ character.val ≤ 'Z'.val
  · exact Bool.or_eq_true_iff.mpr (.inl (decide_eq_true upper))
  · have same : character.toLower = character := dif_neg upper
    rw [same] at small
    exact Bool.or_eq_true_iff.mpr (.inr small)

namespace Setting

/-- The word for a threshold. -/
def thresholdWord : Option Level → String
  | none => "OFF"
  | some level => level.name

/-- A text is the word for a threshold, in letters of any case. -/
def Spells (name : String) (threshold : Option Level) : Prop :=
  name.toList.map Char.toLower = (thresholdWord threshold).toList.map Char.toLower

instance (name : String) (threshold : Option Level) : Decidable (Spells name threshold) :=
  inferInstanceAs (Decidable (_ = _))

section Spells

variable {name : String} {threshold : Option Level}

/-- The word for a threshold is read as the threshold. -/
theorem parseThreshold_of_spells (spelled : Spells name threshold) :
    parseThreshold name.toList = some threshold := by
  rw [parseThreshold, spelled]
  cases threshold with
  | none => decide
  | some level => cases level <;> decide

/-- The word for a threshold is not empty. -/
theorem Spells.ne_nil (spelled : Spells name threshold) : name.toList ≠ [] := by
  intro nothing
  rw [Spells, nothing] at spelled
  cases threshold with
  | none => simp [thresholdWord] at spelled
  | some level => cases level <;> simp [thresholdWord, Level.name] at spelled

/-- The word for a threshold has letters only. -/
theorem Spells.isAlpha (spelled : Spells name threshold) {character : Char}
    (there : character ∈ name.toList) : character.isAlpha := by
  have small : ((thresholdWord threshold).toList.map Char.toLower).all Char.isLower := by
    cases threshold with
    | none => decide
    | some level => cases level <;> decide
  have member := List.mem_map_of_mem there (f := Char.toLower)
  rw [spelled] at member
  exact Letter.isAlpha_of_toLower (List.all_eq_true.mp small _ member)

/-- A character that is not a letter is not in the word for a threshold. -/
theorem Spells.not_mem (spelled : Spells name threshold) {character : Char}
    (other : character.isAlpha = false) : character ∉ name.toList := by
  intro there
  simp [spelled.isAlpha there] at other

/-- The word for a threshold has no blanks. -/
theorem Spells.solid (spelled : Spells name threshold) :
    ∀ character ∈ name.toList, Blank.isBlank character = false :=
  fun _ there => Blank.isBlank_of_isAlpha (spelled.isAlpha there)

/-- Nothing is trimmed from the word for a threshold. -/
theorem Spells.trim_eq (spelled : Spells name threshold) :
    Blank.trim name.toList = name.toList := by
  simpa using Blank.trim_append [] spelled.solid spelled.ne_nil

end Spells

/-- A setting of a common kind. -/
inductive Choice where
  /-- There is no setting. -/
  | unset
  /-- The setting is the empty text. -/
  | empty
  /-- The setting names a level. -/
  | level (name : String) (threshold : Option Level) (spelled : Spells name threshold)
  /-- The setting names a level for the targets with a given start. -/
  | target (start name : String) (threshold : Option Level) (spelled : Spells name threshold)
    (plain : ∀ character ∈ start.toList, character ≠ '/' ∧ character ≠ ',' ∧ character ≠ '=')

namespace Choice

/-- The text of a setting. -/
def text : Choice → Option String
  | unset => none
  | empty => some ""
  | level name _ _ => some name
  | target start name _ _ _ => some (start ++ "=" ++ name)

/-- How the target of a selected record starts. Blanks before a setting do not count. -/
def start : Choice → String
  | target start _ _ _ _ => String.ofList (start.toList.dropWhile Blank.isBlank)
  | _ => ""

/-- The least important level that is selected, if any is. -/
def threshold : Choice → Option Level
  | unset => some .warn
  | empty => some .error
  | level _ threshold _ => threshold
  | target _ _ threshold _ _ => threshold

/-- Whether a setting selects a record. -/
def selects (choice : Choice) (record : Record) : Bool :=
  choice.start.toList.isPrefixOf record.target.toList &&
    choice.threshold.any fun threshold => record.level.rank ≤ threshold.rank

/-- The rule that a setting sets. -/
def rule : Choice → Rule
  | target start name threshold spelled plain =>
    ⟨some (target start name threshold spelled plain).start, threshold⟩
  | choice => ⟨none, choice.threshold⟩

end Choice

/-- A setting of one rule is understood if the rule is. -/
theorem parse_of_rule {text : String} {rule : Rule} (noSlash : '/' ∉ text.toList)
    (noComma : ',' ∉ text.toList) (content : Blank.trim text.toList ≠ [])
    (reads : parseRule (Blank.trim text.toList) = .ok rule) :
    parse text = ⟨⟨[rule], none⟩, []⟩ := by
  have rules : parseRules text.toList = ([rule], []) := by
    have kept : ([Blank.trim text.toList].filter (!·.isEmpty)) = [Blank.trim text.toList] := by
      simp [content]
    rw [parseRules, cutAt_of_not_mem noComma, List.map_singleton, kept, collect, reads]
    rfl
  rw [parse, cutAt_of_not_mem noSlash]
  simp [rules, ofRules]

/-- The name of a level sets its threshold for all records. -/
theorem parse_level {name : String} {threshold : Option Level} (spelled : Spells name threshold) :
    parse name = ⟨⟨[⟨none, threshold⟩], none⟩, []⟩ := by
  apply parse_of_rule (spelled.not_mem rfl) (spelled.not_mem rfl)
  · rw [spelled.trim_eq]
    exact spelled.ne_nil
  · rw [spelled.trim_eq, parseRule, cutAt_of_not_mem (spelled.not_mem rfl)]
    simp [parseThreshold_of_spells spelled]

/-- A target with the name of a level sets its threshold for the records of the target. -/
theorem parse_target {start name : String} {threshold : Option Level}
    (spelled : Spells name threshold)
    (plain : ∀ character ∈ start.toList, character ≠ '/' ∧ character ≠ ',' ∧ character ≠ '=') :
    parse (start ++ "=" ++ name) =
      ⟨⟨[⟨some (String.ofList (start.toList.dropWhile Blank.isBlank)), threshold⟩], none⟩, []⟩ := by
  have characters : (start ++ "=" ++ name).toList = start.toList ++ '=' :: name.toList := by
    simp
  have solid : ∀ character ∈ '=' :: name.toList, Blank.isBlank character = false := by
    simpa using ⟨by decide, spelled.solid⟩
  have trimmed : Blank.trim (start ++ "=" ++ name).toList =
      start.toList.dropWhile Blank.isBlank ++ '=' :: name.toList := by
    rw [characters, Blank.trim_append _ solid (by simp)]
  have noEquals : '=' ∉ start.toList.dropWhile Blank.isBlank :=
    fun there => (plain _ ((List.dropWhile_sublist _).mem there)).2.2 rfl
  apply parse_of_rule
  · rw [characters]
    simp only [List.mem_append, List.mem_cons, not_or]
    exact ⟨fun there => (plain _ there).1 rfl, by decide, spelled.not_mem rfl⟩
  · rw [characters]
    simp only [List.mem_append, List.mem_cons, not_or]
    exact ⟨fun there => (plain _ there).2.1 rfl, by decide, spelled.not_mem rfl⟩
  · rw [trimmed]
    simp
  · rw [trimmed, parseRule, cutAt_append noEquals, cutAt_of_not_mem (spelled.not_mem rfl)]
    simp [spelled.trim_eq, spelled.ne_nil, parseThreshold_of_spells spelled]

/-- A setting of a common kind sets a filter of one rule, and nothing is wrong with it. -/
theorem ofText_choice (choice : Choice) : ofText choice.text = ⟨⟨[choice.rule], none⟩, []⟩ := by
  cases choice with
  | unset =>
    have spelled : Spells "warn" (some .warn) := by decide
    rw [Choice.text, ofText, Option.getD_none, parse_level spelled]
    rfl
  | empty => rfl
  | level name threshold spelled =>
    rw [Choice.text, ofText, Option.getD_some, parse_level spelled]
    rfl
  | target start name threshold spelled plain =>
    rw [Choice.text, ofText, Option.getD_some, parse_target spelled plain]
    rfl

namespace Choice

/-- The records that a setting of a common kind shows are those that it selects. -/
theorem admits_eq (choice : Choice) (record : Record) :
    (ofText choice.text).filter.admits record = choice.selects record := by
  have start : choice.rule.start = choice.start := by
    cases choice <;> rfl
  have threshold : choice.rule.threshold = choice.threshold := by
    cases choice <;> rfl
  rw [ofText_choice, selects, ← start, ← threshold]
  by_cases applies : choice.rule.appliesTo record.target
  · have prefixed : choice.rule.start.toList.isPrefixOf record.target.toList := applies
    simp [Filter.admits, Filter.rule?, applies, prefixed, Rule.prevailing, Rule.admits]
  · have other : choice.rule.start.toList.isPrefixOf record.target.toList = false := by
      simpa only [Rule.appliesTo, Bool.not_eq_true] using applies
    simp [Filter.admits, Filter.rule?, applies, other]

/-- Nothing is warned about in a setting of a common kind. -/
theorem warnings_eq (choice : Choice) : (ofText choice.text).warnings = "" := by
  rw [ofText_choice]
  rfl

end Choice

end Setting

end ForthAsm
