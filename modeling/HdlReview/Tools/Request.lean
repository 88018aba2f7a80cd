import HdlReview.Advice.Crossing
import HdlReview.Advice.Timing
import HdlReview.Lint.Issue

/-!
# Requests

A request asks for a review, for advice on timing or for advice on a crossing. It is read from a
data value.

## Main definitions

* `ReviewRequest`, `TimingRequest`, `CrossingRequest`
* `read`, `toValue` of each
-/

namespace HdlReview.Tools

open HdlReview.Json HdlReview.Validation HdlReview.Decimal HdlReview.Lint HdlReview.Advice

/-- A request for a review of code in a language. -/
structure ReviewRequest where
  code : String
  language : Language
deriving DecidableEq, Repr

/-- A request for advice on a timing problem. -/
structure TimingRequest where
  issue : String
  clockFrequency : Option Double
  violation : Violation
deriving DecidableEq, Repr

/-- A request for advice on a crossing. -/
structure CrossingRequest where
  description : String
  signalType : Option SignalType
deriving DecidableEq, Repr

namespace ReviewRequest

/-- The name of the record in rejections and schemas. -/
def title : String := "AnalyzeRequest"

/-- The fields of a request for a review. -/
def readFields (fields : Fields) : Checked ReviewRequest :=
  (Checked.ap (.ok ReviewRequest.mk) (required "code" text fields)).ap
    (required "language" (listed Language.members) fields)

/-- **A request for a review** from a data value. -/
def read : Reader ReviewRequest :=
  record title readFields

/-- A request for a review as a data value. -/
def toValue (r : ReviewRequest) : Value :=
  .obj [("code", .str r.code), ("language", .str r.language.name)]

end ReviewRequest

namespace TimingRequest

/-- The name of the record in rejections and schemas. -/
def title : String := "TimingRequest"

/-- The fields of a request for advice on timing. -/
def readFields (fields : Fields) : Checked TimingRequest :=
  ((Checked.ap (.ok TimingRequest.mk) (required "issue" text fields)).ap
    (optional "clockFrequency" (nullable number) none fields)).ap
    (optional "violationType" (listed Violation.members) .unknown fields)

/-- **A request for advice on timing** from a data value. -/
def read : Reader TimingRequest :=
  record title readFields

/-- A request for advice on timing as a data value. -/
def toValue (r : TimingRequest) : Value :=
  .obj [("issue", .str r.issue), ("clockFrequency", .ofOption .float r.clockFrequency),
    ("violationType", .str r.violation.name)]

end TimingRequest

namespace CrossingRequest

/-- The name of the record in rejections and schemas. -/
def title : String := "CDCRequest"

/-- The fields of a request for advice on a crossing. -/
def readFields (fields : Fields) : Checked CrossingRequest :=
  (Checked.ap (.ok CrossingRequest.mk) (required "description" text fields)).ap
    (optional "signalType" (nullable (listed SignalType.members)) none fields)

/-- **A request for advice on a crossing** from a data value. -/
def read : Reader CrossingRequest :=
  record title readFields

/-- A request for advice on a crossing as a data value. -/
def toValue (r : CrossingRequest) : Value :=
  .obj [("description", .str r.description),
    ("signalType", .ofOption (fun t => .str t.name) r.signalType)]

end CrossingRequest

end HdlReview.Tools
