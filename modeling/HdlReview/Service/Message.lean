import HdlReview.Json.Raw
import HdlReview.Service.Target
import HdlReview.Validation.Fault

/-!
# Requests and responses

A request has a method, a target and perhaps a body with a content type. A body is a text that fits
into some memory, so that the number of its octets can be written. A response has a status and
carries data or plain text. Data with a number that is not finite cannot be sent, and neither can
what a response repeats of a body if it has lone halves of surrogate pairs or is too deep; in the
place of such a response goes the one to an internal error.

## Main definitions

* `Body`, `Request`, `Response`, `Content`
* `Body.ofText? s`: a text as a body
* `Response.data status v`: a response that carries data
* `Response.repeating limit parts response`: a response that repeats parts of a body
* `Response.detail`, `Response.faults`: responses that say what is wrong
* `isInternalName name`: which fields a response to a faulty body does not show
-/

namespace HdlReview.Service

open HdlReview.Json HdlReview.Validation HdlReview.Text HdlReview.Decimal

/-- The body of a request. -/
structure Body where
  text : String
  fits : octetCount text < longBound
deriving DecidableEq, Repr

/-- A text as a body, if it fits. -/
def Body.ofText? (s : String) : Option Body :=
  if h : octetCount s < longBound then some ⟨s, h⟩ else none

/-- A request. -/
structure Request where
  method : String
  target : Target
  contentType : Option String
  body : Option Body
deriving DecidableEq, Repr

/-- What a response carries. -/
inductive Content where
  | data (v : Value)
  | text (s : String)
deriving Repr

/-- A response, with the headers that name allowed methods and another address. -/
structure Response where
  status : Nat
  content : Content
  allow : Option String
  location : Option String
deriving Repr

namespace Response

/-- The response to an internal error. -/
def internalError : Response :=
  ⟨500, .text "Internal Server Error", none, none⟩

/-- **A response that carries data**, if all its numbers are finite. -/
def data (status : Nat) (v : Value) : Response :=
  if v.allFinite then ⟨status, .data v, none, none⟩ else internalError

/-- **A response that repeats parts of a body**, if they can be sent again. -/
def repeating (limit : Nat) (parts : List (Value RawText)) (response : Response) : Response :=
  if parts.all (Value.sendable limit) then response else internalError

/-- A response whose data are some details. -/
def details (status : Nat) (v : Value) : Response :=
  data status (.obj [("detail", v)])

/-- A response with a text that says what is wrong. -/
def detail (status : Nat) (message : String) : Response :=
  details status (.str message)

/-- The response to an unknown path. -/
def notFound : Response :=
  detail 404 "Not Found"

/-- The response to a method that a path does not allow. -/
def methodNotAllowed (allowed : String) : Response :=
  { detail 405 "Method Not Allowed" with allow := some allowed }

/-- The response that points to another target. -/
def redirect (t : Target) : Response :=
  ⟨307, .text "", none, some t.location⟩

/-- Whether a field is one of those that are kept for internal use and not shown. -/
def isInternalName (name : String) : Bool :=
  "_sa".toList.isPrefixOf name.toList

/-- What a response to a faulty body shows of a part of it: all but internal fields. -/
def visiblePart (v : Value RawText) : Value RawText :=
  v.filterNames fun name => ! isInternalName name.plain

/-- The response to a body with faults. What it shows of the body is without internal fields. -/
def faults (fs : List Fault) : Response :=
  details 422 ((Value.list (fs.map Fault.toValueWithContext)).filterNames (! isInternalName ·))

/-- The response to arguments with faults, without the context of each. -/
def plainFaults (fs : List Fault) : Response :=
  details 422 (.list (fs.map Fault.toValue))

end Response

end HdlReview.Service
