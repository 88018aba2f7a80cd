import HdlReview.Validation.Reader

/-!
# Issues

An issue is what a rule finds in a source: its kind, how serious it is, the line if one is known,
what was found, how to mend it, and the rule. A report holds the issues of a whole review. Both can
be read from data values and written as such.

## Main definitions

* `Language`, `Severity`, `Kind`: the closed sets of names
* `Issue`, `Report`
* `Issue.read`, `Report.read`: from data values
* `Issue.toValue`, `Report.toValue`: to data values
-/

namespace HdlReview.Lint

open HdlReview.Json HdlReview.Validation HdlReview.Decimal

/-- A hardware description language. -/
inductive Language where
  | verilog
  | vhdl
deriving DecidableEq, Repr

/-- The name of a language. -/
def Language.name : Language → String
  | verilog => "verilog"
  | vhdl => "vhdl"

/-- The languages by name. -/
def Language.members : List (String × Language) :=
  [verilog, vhdl].map fun l => (l.name, l)

/-- How serious an issue is. -/
inductive Severity where
  | error
  | warning
  | info
deriving DecidableEq, Repr

/-- The name of a severity. -/
def Severity.name : Severity → String
  | error => "error"
  | warning => "warning"
  | info => "info"

/-- The severities, the gravest first. -/
def Severity.all : List Severity :=
  [error, warning, info]

/-- The severities by name. -/
def Severity.members : List (String × Severity) :=
  all.map fun s => (s.name, s)

/-- What an issue is about. -/
inductive Kind where
  | latchInference
  | blockingInSequential
  | incompleteSensitivity
  | noCaseDefault
  | multipleAssignments
  | clockDomainCrossing
  | mixedVariableSignal
  | style
  | internalError
deriving DecidableEq, Repr

/-- The name of a kind. -/
def Kind.name : Kind → String
  | latchInference => "latch_inference"
  | blockingInSequential => "blocking_in_sequential"
  | incompleteSensitivity => "incomplete_sensitivity"
  | noCaseDefault => "no_case_default"
  | multipleAssignments => "multiple_assignments"
  | clockDomainCrossing => "clock_domain_crossing"
  | mixedVariableSignal => "mixed_variable_signal"
  | style => "style"
  | internalError => "internal_error"

/-- The kinds by name. -/
def Kind.members : List (String × Kind) :=
  [latchInference, blockingInSequential, incompleteSensitivity, noCaseDefault, multipleAssignments,
    clockDomainCrossing, mixedVariableSignal, style, internalError].map fun k => (k.name, k)

/-- A finding of a rule. Lines are numbered from one. -/
structure Issue where
  kind : Kind
  severity : Severity
  line : Option Nat
  message : String
  suggestion : String
  ruleId : String
deriving DecidableEq, Repr

/-- The outcome of a review. -/
structure Report where
  totalIssues : Nat
  issues : List Issue
  summary : String
  language : Option Language
  rulesExecuted : List String
deriving DecidableEq, Repr

/-! ## Data values -/

/-- An issue as a data value. -/
def Issue.toValue (i : Issue) : Value :=
  .obj [("kind", .str i.kind.name), ("severity", .str i.severity.name),
    ("line", .ofOption (fun (n : Nat) => .int n) i.line), ("message", .str i.message),
    ("suggestion", .str i.suggestion), ("rule_id", .str i.ruleId)]

/-- A report as a data value. -/
def Report.toValue (r : Report) : Value :=
  .obj [("totalIssues", .int r.totalIssues), ("issues", .list (r.issues.map Issue.toValue)),
    ("summary", .str r.summary), ("language", .ofOption (fun l => .str l.name) r.language),
    ("rules_executed", .texts r.rulesExecuted)]

/-- The fields of an issue. -/
def Issue.readFields (fields : Fields) : Checked Issue :=
  ((((((Checked.ap (.ok Issue.mk) (required "kind" (member Kind.members) fields)).ap
    (required "severity" (member Severity.members) fields)).ap
    (optional "line" (nullable (atLeast 1)) none fields)).ap
    (required "message" nonEmptyText fields)).ap
    (required "suggestion" nonEmptyText fields)).ap
    (optional "rule_id" text "" fields))

/-- **An issue from a data value**. -/
def Issue.read : Reader Issue :=
  record "Issue" Issue.readFields

/-- The fields of a report, one by one. -/
def Report.readFields (fields : Fields) : Checked Report :=
  (((((Checked.ap (.ok Report.mk) (optional "totalIssues" (atLeast 0) 0 fields)).ap
    (optional "issues" (listOf Issue.read) [] fields)).ap
    (optional "summary" text "" fields)).ap
    (optional "language" (nullable (member Language.members)) none fields)).ap
    (optional "rules_executed" (listOf text) [] fields))

/-- The complaint about a total that is not the number of issues. -/
def Report.miscount (r : Report) : String :=
  "totalIssues=" ++ natText r.totalIssues ++ " does not match " ++ natText r.issues.length ++
    " issues"

/-- The fields of a report, whose total is the number of its issues. -/
def Report.readConsistent (fields : Fields) : Checked Report :=
  match readFields fields with
  | .ok r =>
    if r.totalIssues = r.issues.length then .ok r
    else reject (.inconsistent r.miscount) (.obj fields)
  | .error e => .error e

/-- **A report from a data value**. -/
def Report.read : Reader Report :=
  record "AnalysisResult" Report.readConsistent

end HdlReview.Lint
