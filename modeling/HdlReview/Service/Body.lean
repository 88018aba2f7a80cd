import HdlReview.Json.Reader
import HdlReview.Service.Message
import HdlReview.Text.Blank
import HdlReview.Text.Encoding
import HdlReview.Validation.Reader

/-!
# Request bodies

The body of a request is a data text if its content type says so, and a plain text otherwise. The
encoding of a data text is told from its first octets. An operation reads its request from the value
of the body with plain texts; the place of a fault then starts at the body. The response to a faulty
body repeats the parts that have the faults, as they are in the body.

## Main definitions

* `isDataType contentType`: whether a content type is one of data texts
* `Request.data? r`: the value of the body, or the response that turns it down
* `reach place v`, `partsAt places v`: the part of a value at a place, and at some places
* `Posted`: a body with the request to an operation that it holds
* `Request.read r`: the same, or the response that turns the body down
-/

namespace HdlReview.Service

open HdlReview.Json HdlReview.Validation HdlReview.Text

/-! ## Content types -/

/-- The type and the subtype that a content type names, in small letters. Anything but two parts
names none. -/
def mediaType? (contentType : String) : Option (List Char × List Char) :=
  let name := (trimShortBlanks (contentType.toList.takeWhile (· ≠ ';'))).map Char.toLower
  match name.splitOn '/' with
  | [kind, subtype] => some (kind, subtype)
  | _ => none

/-- Whether a content type is one of data texts. -/
def isDataType (contentType : String) : Bool :=
  match mediaType? contentType with
  | some (kind, subtype) =>
    kind = "application".toList ∧ (subtype = "json".toList ∨ "+json".toList.isSuffixOf subtype)
  | none => false

/-! ## Values of bodies -/

/-- The place of the body. -/
def bodyPlace : Segment := .field "body"

/-- The response to a request without a body. -/
def missingBody : Response :=
  .faults [⟨.missing, [bodyPlace], .null⟩]

/-- The response to a body that cannot be taken for a data text at all. -/
def unreadableBody : Response :=
  .detail 400 "There was an error parsing the body"

/-- The response to a malformed data text. A number that is too long and values nested too deeply
are not complained about with their place. -/
def malformedBody (m : Malformed) : Response :=
  match m.complaint with
  | .longInteger => unreadableBody
  | .listTooDeep => unreadableBody
  | .objectTooDeep => unreadableBody
  | c => .faults [⟨.unreadableBody c.message, [bodyPlace, .item m.position], .obj []⟩]

/-- Lists and objects in a body are at most this deep. -/
def depthLimit : Nat := 966

/-- The value of a body that is a data text, or the response that turns it down. -/
def readData (s : List Char) : Except Response (Value RawText) :=
  match decodeText? (s.flatMap octets) with
  | none => .error unreadableBody
  | some t =>
    match Json.readRaw depthLimit t with
    | .ok v => .ok v
    | .error m => .error (malformedBody m)

/-- **The value of a request's body**, or the response that turns it down. -/
def Request.data? (r : Request) : Except Response (Value RawText) :=
  match r.body with
  | none => .error missingBody
  | some body =>
    if body.text = "" then .error missingBody
    else if isDataType (r.contentType.getD "") then readData body.text.toList
    else .ok (.str (.ofString body.text))

/-! ## Parts of bodies -/

/-- The part of a value at a place, as far as the place leads. -/
def reach : List Segment → Value RawText → Value RawText
  | .field name :: place, .obj fields =>
    match Keyed.get? (RawText.ofString name) fields with
    | some v => reach place v
    | none => .obj fields
  | .item index :: place, .list items =>
    match items[index]? with
    | some v => reach place v
    | none => .list items
  | _, v => v

/-- The parts of a value at some places. -/
def partsAt (places : List (List Segment)) (v : Value RawText) : List (Value RawText) :=
  places.map fun place => reach place v

/-- A body with the request that it holds. -/
structure Posted (α : Type) where
  body : Value RawText
  request : α

/-- The fields of a body that has to be an object, with the defect that it otherwise has. -/
def bodyFields (defect : Defect) : Value → Checked Fields
  | .obj fields => .ok fields
  | v => reject defect v

/-- What a body is read as. -/
def readBody {α : Type} (defect : Defect) (read : Fields → Checked α) (v : Value) : Checked α :=
  match bodyFields defect v with
  | .ok fields => read fields
  | .error e => .error e

/-- The response to a body with faults, if what it shows of the body can be sent again. -/
def Response.toFaulty (limit : Nat) (body : Value RawText) (fs : List Fault) : Response :=
  .repeating limit ((partsAt (fs.map Fault.place) body).map visiblePart)
    (.faults (fs.map (Fault.within bodyPlace)))

/-- **What a request's body is read as**, or the response that turns it down, which shows at most
`limit` lists and objects inside each other. -/
def Request.read {α : Type} (limit : Nat) (defect : Defect) (read : Fields → Checked α)
    (r : Request) : Except Response (Posted α) :=
  match r.data? with
  | .error response => .error response
  | .ok body =>
    match readBody defect read body.plain with
    | .ok a => .ok ⟨body, a⟩
    | .error fs => .error (.toFaulty limit body fs)

end HdlReview.Service
