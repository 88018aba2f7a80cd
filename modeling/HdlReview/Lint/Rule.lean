import HdlReview.Lint.Issue
import HdlReview.Scan.Signals

/-!
# Rules

A rule looks at a whole source and returns what it finds. Each rule has an id, and gives all its
issues one kind, one severity and one suggestion. The rules are heuristics on words and marks: an
`else` anywhere silences the latch rule, and one non-blocking assignment anywhere silences the
blocking rule.

## Main definitions

* `Rule`: the rules
* `Rule.id`, `Rule.kind`, `Rule.severity`, `Rule.suggestion`: what a rule stamps on its issues
* `Rule.findings r s`: the lines and messages of a rule
* `Rule.check r s`: the issues of a rule
-/

namespace HdlReview.Lint

open HdlReview.Scan HdlReview.Decimal

/-- A rule of the review. -/
inductive Rule where
  | latchInference
  | blockingInSequential
  | incompleteSensitivity
  | caseDefault
  | multipleAssignments
  | clockDomainCrossing
  | vhdlLatchInference
  | mixedVariableSignal
  | longLines
deriving DecidableEq, Repr

/-- What a rule finds, apart from what all its findings share. -/
structure Finding where
  line : Option Nat
  message : String
deriving DecidableEq, Repr

namespace Rule

/-- All rules. -/
def all : List Rule :=
  [latchInference, blockingInSequential, incompleteSensitivity, caseDefault, multipleAssignments,
    clockDomainCrossing, vhdlLatchInference, mixedVariableSignal, longLines]

/-- The id that issues of a rule carry. -/
def id : Rule → String
  | latchInference => "latch_inference"
  | blockingInSequential => "blocking_in_sequential"
  | incompleteSensitivity => "incomplete_sensitivity"
  | caseDefault => "no_case_default"
  | multipleAssignments => "multiple_assignments"
  | clockDomainCrossing => "clock_domain_crossing"
  | vhdlLatchInference => "vhdl_latch_inference"
  | mixedVariableSignal => "mixed_variable_signal"
  | longLines => "long_lines"

/-- The kind of the issues of a rule. -/
def kind : Rule → Kind
  | latchInference => .latchInference
  | blockingInSequential => .blockingInSequential
  | incompleteSensitivity => .incompleteSensitivity
  | caseDefault => .noCaseDefault
  | multipleAssignments => .multipleAssignments
  | clockDomainCrossing => .clockDomainCrossing
  | vhdlLatchInference => .latchInference
  | mixedVariableSignal => .mixedVariableSignal
  | longLines => .style

/-- The severity of the issues of a rule. -/
def severity : Rule → Severity
  | latchInference => .warning
  | blockingInSequential => .error
  | incompleteSensitivity => .warning
  | caseDefault => .warning
  | multipleAssignments => .error
  | clockDomainCrossing => .warning
  | vhdlLatchInference => .warning
  | mixedVariableSignal => .info
  | longLines => .info

/-- How to mend the issues of a rule. -/
def suggestion : Rule → String
  | latchInference => "Add an else clause or default assignment before the if statement"
  | blockingInSequential => "Use non-blocking assignments (<=) for sequential logic"
  | incompleteSensitivity => "Use always @(*) for automatic sensitivity list generation"
  | caseDefault => "Add a default clause to handle unexpected values"
  | multipleAssignments =>
    "Ensure each signal is assigned in only one always block or assign statement"
  | clockDomainCrossing =>
    "Use proper synchronizers (two-flop) for single-bit CDC, async FIFOs for data"
  | vhdlLatchInference => "Ensure all signals have default assignments or complete if-else chains"
  | mixedVariableSignal =>
    "Variables update immediately, signals update at end of process - ensure correct usage"
  | longLines => "Consider breaking long lines for better readability"

end Rule

/-! ## Findings -/

/-- A finding without a line if a condition holds. -/
def findingIf (condition : Bool) (message : String) : List Finding :=
  if condition then [⟨none, message⟩] else []

/-- An `if` and no `else`: the line of the first `if`. -/
def latchFindings (s : List Char) : List Finding :=
  if contains (.wholeWord "else") s then []
  else
    match lineOfFirst (.wholeWord "if") s with
    | some line => [⟨some line, "Incomplete if statement may cause latch inference"⟩]
    | none => []

/-- A clock edge in a header, an equals sign, and no non-blocking assignment. -/
def blockingFindings (s : List Char) : List Finding :=
  findingIf (hasEdgeHeader s && !contains .nonBlocking s && contains .blocking s)
    "Using blocking assignments (=) in sequential always block"

/-- The names of a source that a sensitivity list leaves out. -/
def missingSignals (s list : List Char) : List (List Char) :=
  let listed := listedSignals list
  (orderedSignals s).filter fun name => !listed.contains name

/-- The finding about names that the sensitivity list on a line leaves out. -/
def missingFinding (line : Nat) (names : List (List Char)) : Finding :=
  ⟨some line, "Potentially incomplete sensitivity list. Missing signals: " ++
    ", ".intercalate (names.map String.ofList)⟩

/-- The names that the first header behind `always` leaves out, unless it names a clock edge. -/
def sensitivityFindings (s : List Char) : List Finding :=
  match search .alwaysHeader s with
  | none => []
  | some header =>
    if contains .edge header.group then []
    else
      let missing := missingSignals s header.group
      if missing.isEmpty then [] else [missingFinding (lineOf s header.start) missing]

/-- A case statement and no `default`. -/
def caseFindings (s : List Char) : List Finding :=
  findingIf (contains .caseWord s && !contains (.wholeWord "default") s)
    "Case statement without default clause"

/-- The finding about a target that is assigned `count` times. -/
def repeatedTarget (name : List Char) (count : Nat) : Finding :=
  ⟨none, "Signal '" ++ String.ofList name ++ "' assigned multiple times (" ++ natText count ++
    " assignments)"⟩

/-- Every target that is assigned more than once. -/
def assignmentFindings (s : List Char) : List Finding :=
  ((assignmentCounts s).filter fun (_, count) => 1 < count).map fun (name, count) =>
    repeatedTarget name count

/-- Two different clocks in the headers. -/
def crossingFindings (s : List Char) : List Finding :=
  findingIf (2 ≤ (clockSignals s).length) "Multiple clock domains detected - potential CDC issues"

/-- A process and no `else`. -/
def processFindings (s : List Char) : List Finding :=
  findingIf (contains (.caselessWord "process") s && !contains (.caselessWord "else") s)
    "Incomplete conditional assignment in process may cause latch"

/-- Both variables and signals. -/
def mixedFindings (s : List Char) : List Finding :=
  findingIf (contains (.caselessWord "variable") s && contains (.caselessWord "signal") s)
    "Process uses both variables and signals"

/-- Lines have at most this many characters. -/
def lineLimit : Nat := 120

/-- The number of lines that are too long. -/
def longLineFindings (s : List Char) : List Finding :=
  let n := (lines s).countP fun line => lineLimit < line.length
  findingIf (n ≠ 0) (natText n ++ " lines exceed " ++ natText lineLimit ++ " characters")

namespace Rule

/-- What a rule finds in a source. -/
def findings : Rule → List Char → List Finding
  | latchInference => latchFindings
  | blockingInSequential => blockingFindings
  | incompleteSensitivity => sensitivityFindings
  | caseDefault => caseFindings
  | multipleAssignments => assignmentFindings
  | clockDomainCrossing => crossingFindings
  | vhdlLatchInference => processFindings
  | mixedVariableSignal => mixedFindings
  | longLines => longLineFindings

/-- The issue of a rule for a finding. -/
def issue (r : Rule) (f : Finding) : Issue :=
  ⟨r.kind, r.severity, f.line, f.message, r.suggestion, r.id⟩

/-- **The issues of a rule** in a source. -/
def check (r : Rule) (s : List Char) : List Issue :=
  (r.findings s).map r.issue

end Rule

end HdlReview.Lint
