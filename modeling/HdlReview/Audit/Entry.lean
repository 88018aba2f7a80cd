import HdlReview.Audit.Timestamp
import HdlReview.Json.Writer
import HdlReview.Validation.Reader

/-!
# Audit entries

An entry says that an operation was carried out, and nothing of the text it was carried out on. It
is recorded as one line of data with the time, unless its number of issues has too many digits to be
written.

## Main definitions

* `Entry`: what is recorded of an operation; `Entry.read`, `Entry.toValue`
* `Entry.record now e`: the entry with the time, a missing language left out
* `Entry.line now e`: the line of the log, or the error
-/

namespace HdlReview.Audit

open HdlReview.Json HdlReview.Validation HdlReview.Decimal

/-- What is recorded of an operation. -/
structure Entry where
  requestId : String
  operation : String
  language : Option String
  totalIssues : Int
  durationMs : Double
deriving DecidableEq, Repr

namespace Entry

/-- An entry as a data value. -/
def toValue (e : Entry) : Value :=
  .obj [("request_id", .str e.requestId), ("operation", .str e.operation),
    ("language", .ofOption .str e.language), ("total_issues", .int e.totalIssues),
    ("duration_ms", .float e.durationMs)]

/-- The fields of an entry. -/
def readFields (fields : Fields) : Checked Entry :=
  ((((Checked.ap (.ok Entry.mk) (required "request_id" text fields)).ap
    (required "operation" text fields)).ap
    (optional "language" (nullable text) none fields)).ap
    (optional "total_issues" integer 0 fields)).ap
    (optional "duration_ms" number (.zero false) fields)

/-- **An entry from a data value**. -/
def read : Reader Entry :=
  Validation.record "AuditEntry" readFields

/-- The entry with the time as a data value, a missing language left out. -/
def record (now : Int) (e : Entry) : Value :=
  .obj ([("timestamp", .str (timestamp now)), ("request_id", .str e.requestId),
    ("operation", .str e.operation)] ++
    (e.language.map fun l => ("language", Value.str l)).toList ++
    [("total_issues", .int e.totalIssues), ("duration_ms", .float e.durationMs)])

/-- **The line of the log** for an entry, with the newline at its end, if the number of issues can
be written. -/
def line (now : Int) (e : Entry) : Except WritingError (List Char) :=
  (writeInt e.totalIssues).map fun _ => write (e.record now) ++ ['\n']

end Entry

end HdlReview.Audit
