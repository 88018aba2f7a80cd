import HdlReview.Lint.Issue

/-!
# The summary line

A review is summed up in one line: the number of issues and, from the gravest severity on, the
number of issues of each severity that occurs.

## Main definitions

* `severityCount severity issues`: the number of issues of a severity
* `summarize issues`: the summary line
-/

namespace HdlReview.Lint

open HdlReview.Decimal

/-- The word for a number of issues of a severity. -/
def Severity.label : Severity → String
  | error => "error(s)"
  | warning => "warning(s)"
  | info => "info"

/-- The number of issues of a severity. -/
def severityCount (severity : Severity) (issues : List Issue) : Nat :=
  issues.countP fun i => i.severity = severity

/-- The part of the summary for a severity, absent if no issue has it. -/
def severityPart? (issues : List Issue) (severity : Severity) : Option String :=
  let n := severityCount severity issues
  if n = 0 then none else some (natText n ++ " " ++ severity.label)

/-- **The summary line** of a list of issues. -/
def summarize (issues : List Issue) : String :=
  if issues.isEmpty then "No issues found. Code looks good!"
  else
    "Found " ++ natText issues.length ++ " issue(s): " ++
      ", ".intercalate (Severity.all.filterMap (severityPart? issues))

end HdlReview.Lint
