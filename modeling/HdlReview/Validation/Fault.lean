import HdlReview.Json.Spelling

/-!
# Faults of a data value

A value that does not have the form a record asks for is turned down with the list of its faults.
A fault says what is wrong, at which place of the value, and shows the offending part. The wording
of faults is fixed here once.

## Main definitions

* `Segment`: one step of a place inside a value
* `Defect`: what is wrong; `Defect.code`, `Defect.message`, `Defect.context` word it
* `Fault`: a defect at a place
* `Rejection`: the faults of a value that was to be a record
-/

namespace HdlReview.Validation

open HdlReview.Json HdlReview.Text HdlReview.Decimal

/-- One step into a value: a field of an object or an item of a list. -/
inductive Segment where
  | field (name : String)
  | item (index : Nat)
deriving DecidableEq, Repr

/-- The step as a data value. -/
def Segment.toValue : Segment → Value
  | field name => .str name
  | item index => .int index

/-- What is wrong with a value. -/
inductive Defect where
  /-- A required field is absent. -/
  | missing
  /-- Not a text. -/
  | notText
  /-- A text without characters. -/
  | emptyText
  /-- Not an integer. -/
  | notInteger
  /-- A double with a fraction for an integer. -/
  | fraction
  /-- A double that is not finite for an integer. -/
  | notFinite
  /-- A text that is no integer. -/
  | unreadableInteger
  /-- A double beyond the range of integers that doubles are taken for, or too long a text. -/
  | oversizedInteger
  /-- An integer below its bound. -/
  | below (bound : Int)
  /-- Not a number. -/
  | notNumber
  /-- A text that is no number. -/
  | unreadableNumber
  /-- A text that is no truth value. -/
  | unreadableFlag
  /-- Not a list. -/
  | notList
  /-- Not an object. -/
  | notObject
  /-- None of the members of an enumeration. -/
  | notMember (choices : List String)
  /-- None of the listed texts. -/
  | notListed (choices : List String)
  /-- Not an object for a record. -/
  | notRecord (record : String)
  /-- A request body that is not an object. -/
  | notBody
  /-- Fields that contradict each other. -/
  | inconsistent (reason : String)
  /-- A body that cannot be read as data. -/
  | unreadableBody (reason : String)
deriving DecidableEq, Repr

/-- Quoted texts with commas between them and `or` before the last. -/
def orList : List String → String
  | [] => ""
  | [a] => quote a
  | [a, b] => quote a ++ " or " ++ quote b
  | a :: b :: c :: rest => quote a ++ ", " ++ orList (b :: c :: rest)

namespace Defect

/-- The identifying name of a defect. -/
def code : Defect → String
  | missing => "missing"
  | notText => "string_type"
  | emptyText => "string_too_short"
  | notInteger => "int_type"
  | fraction => "int_from_float"
  | notFinite => "finite_number"
  | unreadableInteger => "int_parsing"
  | oversizedInteger => "int_parsing_size"
  | below _ => "greater_than_equal"
  | notNumber => "float_type"
  | unreadableNumber => "float_parsing"
  | unreadableFlag => "bool_parsing"
  | notList => "list_type"
  | notObject => "dict_type"
  | notMember _ => "enum"
  | notListed _ => "literal_error"
  | notRecord _ => "model_type"
  | notBody => "model_attributes_type"
  | inconsistent _ => "value_error"
  | unreadableBody _ => "json_invalid"

/-- The wording of a defect. -/
def message : Defect → String
  | missing => "Field required"
  | notText => "Input should be a valid string"
  | emptyText => "String should have at least 1 character"
  | notInteger => "Input should be a valid integer"
  | fraction => "Input should be a valid integer, got a number with a fractional part"
  | notFinite => "Input should be a finite number"
  | unreadableInteger => "Input should be a valid integer, unable to parse string as an integer"
  | oversizedInteger => "Unable to parse input string as an integer, exceeded maximum size"
  | below bound => "Input should be greater than or equal to " ++ intText bound
  | notNumber => "Input should be a valid number"
  | unreadableNumber => "Input should be a valid number, unable to parse string as a number"
  | unreadableFlag => "Input should be a valid boolean, unable to interpret input"
  | notList => "Input should be a valid list"
  | notObject => "Input should be a valid dictionary"
  | notMember choices => "Input should be " ++ orList choices
  | notListed choices => "Input should be " ++ orList choices
  | notRecord record => "Input should be a valid dictionary or instance of " ++ record
  | notBody => "Input should be a valid dictionary or object to extract fields from"
  | inconsistent reason => "Value error, " ++ reason
  | unreadableBody _ => "JSON decode error"

/-- What a defect adds to its wording as data: the listed texts, or the reader's complaint. -/
def context : Defect → Option Value
  | notListed choices => some (.obj [("expected", .str (orList choices))])
  | unreadableBody reason => some (.obj [("error", .str reason)])
  | _ => none

end Defect

/-- A defect, its place in the value, and the part of the value that has it. -/
structure Fault where
  defect : Defect
  place : List Segment
  input : Value
deriving Repr

namespace Fault

/-- The fault seen from one step further out. -/
def within (segment : Segment) (f : Fault) : Fault :=
  { f with place := segment :: f.place }

/-- The fields that describe a fault. -/
def describe (f : Fault) : Fields :=
  [("type", .str f.defect.code), ("loc", .list (f.place.map Segment.toValue)),
    ("msg", .str f.defect.message), ("input", f.input)]

/-- A fault as a data value. -/
def toValue (f : Fault) : Value :=
  .obj f.describe

/-- A fault as a data value, with its context where it has one. -/
def toValueWithContext (f : Fault) : Value :=
  .obj (f.describe ++ (f.defect.context.map fun c => ("ctx", c)).toList)

end Fault

/-- A value that was to be a record, turned down. -/
structure Rejection where
  record : String
  faults : List Fault
deriving Repr

end HdlReview.Validation
