import ForthAsm.Log.Filter
import ForthAsm.Pattern.OfText
import ForthAsm.Text.Blank
import ForthAsm.Text.Cut

/-!
# Settings of the log

A filter is set by a short text: rules with commas between them and, behind a slash, a
pattern. A rule is the name of a level, or a target, or a target with a level behind an equals
sign. What cannot be understood is left out and warned about. Without a setting only warnings
and errors are shown, and a setting without a rule shows errors.
-/

namespace ForthAsm

/-- A part of a setting that cannot be understood. -/
inductive SettingProblem where
  /-- More than one slash stands in the setting. -/
  | tooManySlashes (setting : String)
  /-- A rule or its level is not understood. -/
  | badRule (text : String)
  /-- What stands behind the slash is no pattern. -/
  | badPattern (defect : Pattern.Defect)
  deriving DecidableEq, Repr

namespace SettingProblem

/-- What is wrong, in words. -/
def message : SettingProblem → String
  | tooManySlashes setting => "invalid logging spec '" ++ setting ++ "' (too many '/'s)"
  | badRule text => "invalid logging spec '" ++ text ++ "'"
  | badPattern defect => "invalid regex filter - " ++ defect.message

/-- The line that warns about a problem. -/
def warning (problem : SettingProblem) : String :=
  "warning: " ++ problem.message ++ ", ignoring it\n"

end SettingProblem

/-- A filter and what could not be understood of the text that sets it. -/
structure Setting where
  /-- The filter that is set. -/
  filter : Filter
  /-- What was left out, in the order in which it was found. -/
  problems : List SettingProblem
  deriving DecidableEq

namespace Setting

/-- Every level, under its name in small letters; `off` shows nothing. -/
def threshold? : String → Option (Option Level)
  | "off" => some none
  | "error" => some (some .error)
  | "warn" => some (some .warn)
  | "info" => some (some .info)
  | "debug" => some (some .debug)
  | "trace" => some (some .trace)
  | _ => none

/-- The threshold that a text names, in letters of any case. -/
def parseThreshold (text : List Char) : Option (Option Level) :=
  threshold? (String.ofList (text.map Char.toLower))

/-- The rule that a text describes. A text that is no level is a target of which everything
is shown. -/
def parseRule (text : List Char) : Except SettingProblem Rule :=
  match cutAt '=' text with
  | [name] =>
    match parseThreshold name with
    | some threshold => .ok ⟨none, threshold⟩
    | none => .ok ⟨some (String.ofList name), some .trace⟩
  | [target, level] =>
    let level := Blank.trim level
    if level.isEmpty then .ok ⟨some (String.ofList target), some .trace⟩
    else match parseThreshold level with
      | some threshold => .ok ⟨some (String.ofList target), threshold⟩
      | none => .error (.badRule (String.ofList level))
  | _ => .error (.badRule (String.ofList text))

/-- Add a rule; it takes the place of an earlier one for the same target. -/
def insert (rule : Rule) : List Rule → List Rule
  | [] => [rule]
  | earlier :: rules =>
    if earlier.target = rule.target then rule :: rules else earlier :: insert rule rules

/-- Take the rules of some texts one after another, leaving out those that are not
understood. -/
def collect (rules : List Rule) : List (List Char) → List Rule × List SettingProblem
  | [] => (rules, [])
  | text :: texts =>
    match parseRule text with
    | .ok rule => collect (insert rule rules) texts
    | .error problem =>
      let (rules, problems) := collect rules texts
      (rules, problem :: problems)

/-- The rules of a text with commas between them. -/
def parseRules (text : List Char) : List Rule × List SettingProblem :=
  collect [] (((cutAt ',' text).map Blank.trim).filter (!·.isEmpty))

/-- The pattern that a text describes, or what is wrong with it. -/
def parsePattern (text : List Char) : Option Pattern × List SettingProblem :=
  match Pattern.ofText (String.ofList text) with
  | .ok pattern => (some pattern, [])
  | .error defect => (none, [.badPattern defect])

/-- The filter of some rules, and of a pattern if there is one. -/
def ofRules (rules : List Rule) (pattern : Option Pattern) : Filter :=
  ⟨if rules.isEmpty then Filter.errors.rules else rules, pattern⟩

/-- The setting that a text describes. -/
def parse (text : String) : Setting :=
  match cutAt '/' text.toList with
  | [rules] =>
    let (rules, problems) := parseRules rules
    ⟨ofRules rules none, problems⟩
  | [rules, pattern] =>
    let (rules, problems) := parseRules rules
    let (pattern, more) := parsePattern pattern
    ⟨ofRules rules pattern, problems ++ more⟩
  | _ => ⟨.errors, [.tooManySlashes text]⟩

/-- The setting of a text that may be missing. -/
def ofText (text : Option String) : Setting :=
  parse (text.getD "warn")

/-- The warnings about all that could not be understood. -/
def warnings (setting : Setting) : String :=
  setting.problems.foldl (fun written problem => written ++ problem.warning) ""

end Setting

end ForthAsm
