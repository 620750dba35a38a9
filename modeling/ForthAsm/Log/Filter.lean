import ForthAsm.Log.Record
import ForthAsm.Pattern.Basic
import ForthAsm.Text.Plain

/-!
# Log filters

A filter holds rules about the records of targets and perhaps a pattern for their messages.
Of the rules whose target starts the target of a record the longest one decides, and where two
are equally long the later one. A record that no rule is about is not shown.

Main statements: `rule?_mem`, the deciding rule is one of the filter that applies, and
`report_of_off`, a filter whose rules are all off has nothing to report.
-/

namespace ForthAsm

/-- What is shown of the records of some targets. -/
structure Rule where
  /-- How the target of a record has to start; a rule without it is about all records. -/
  target : Option String
  /-- The least important level that is shown, if any is. -/
  threshold : Option Level
  deriving DecidableEq, Repr

namespace Rule

/-- How the target of a record has to start. -/
def start (rule : Rule) : String :=
  rule.target.getD ""

/-- Whether a rule is about the records of a target. -/
def appliesTo (rule : Rule) (target : String) : Bool :=
  rule.start.toList.isPrefixOf target.toList

/-- Whether a rule shows the records of a level. -/
def admits (rule : Rule) (level : Level) : Bool :=
  rule.threshold.any fun threshold => level.rank ≤ threshold.rank

/-- The rule that decides of an earlier and a later one. -/
def prevailing (earlier : Option Rule) (later : Rule) : Option Rule :=
  match earlier with
  | none => some later
  | some rule =>
    if rule.start.utf8ByteSize ≤ later.start.utf8ByteSize then some later else earlier

/-- The rule that decides is one of the two. -/
theorem eq_of_prevailing {earlier : Option Rule} {later rule : Rule}
    (decides : prevailing earlier later = some rule) : earlier = some rule ∨ later = rule := by
  unfold prevailing at decides
  split at decides
  · exact .inr (Option.some.inj decides)
  · split at decides
    · exact .inr (Option.some.inj decides)
    · exact .inl decides

end Rule

/-- Which records are shown. -/
structure Filter where
  /-- The rules, in the order in which they were given. -/
  rules : List Rule
  /-- What has to occur in a message. -/
  pattern : Option Pattern
  deriving DecidableEq

namespace Filter

/-- Only errors are shown. -/
def errors : Filter := ⟨[⟨none, some .error⟩], none⟩

/-- The rule that decides about the records of a target. -/
def rule? (filter : Filter) (target : String) : Option Rule :=
  (filter.rules.filter (·.appliesTo target)).foldl Rule.prevailing none

/-- Whether a record is shown. -/
def admits (filter : Filter) (record : Record) : Bool :=
  (filter.rule? record.target).any (·.admits record.level) &&
    filter.pattern.all (·.occursIn record.message)

/-- The line of a record. Its message comes from a source that may hold anything, so what a
terminal would take for orders is left out. -/
def line (record : Record) : String :=
  Plain.strip (record.message ++ "\n")

/-- The lines of the records that are shown. -/
def report (filter : Filter) (log : Array Record) : String :=
  (log.toList.filter filter.admits).foldl (fun written record => written ++ line record) ""

/-- The deciding rule is one of the filter and applies. -/
theorem rule?_mem {filter : Filter} {target : String} {rule : Rule}
    (found : filter.rule? target = some rule) :
    rule ∈ filter.rules ∧ rule.appliesTo target := by
  have chosen : ∀ (rules : List Rule) (earlier : Option Rule),
      rules.foldl Rule.prevailing earlier = some rule → earlier = some rule ∨ rule ∈ rules := by
    intro rules
    induction rules with
    | nil => exact fun earlier same => .inl same
    | cons first others ih =>
      intro earlier decides
      rcases ih _ decides with before | member
      · rcases Rule.eq_of_prevailing before with same | same
        · exact .inl same
        · exact .inr (by simp [same])
      · exact .inr (List.mem_cons_of_mem _ member)
  rcases chosen _ none found with impossible | member
  · exact absurd impossible (by simp)
  · exact List.mem_filter.mp member

/-- A filter whose rules are all off shows nothing. -/
theorem admits_of_off {filter : Filter} (off : ∀ rule ∈ filter.rules, rule.threshold = none)
    (record : Record) : filter.admits record = false := by
  cases found : filter.rule? record.target with
  | none => simp [admits, found]
  | some rule => simp [admits, found, Rule.admits, off rule (rule?_mem found).1]

/-- A filter whose rules are all off has nothing to report. -/
theorem report_of_off {filter : Filter} (off : ∀ rule ∈ filter.rules, rule.threshold = none)
    (log : Array Record) : filter.report log = "" := by
  have nothing : log.toList.filter filter.admits = [] :=
    List.filter_eq_nil_iff.mpr fun record _ => by simp [admits_of_off off record]
  simp [report, nothing]

end Filter

end ForthAsm
