import HdlReview.Json.Value

/-!
# Schemas of arguments

A schema says which data values an argument of a tool may take. The schemas of a tool's arguments
form a record schema, which is advertised as a data value.

## Main definitions

* `Schema`: texts, numbers, one of some texts, or null beside another schema
* `Property`: a named argument with its schema and default
* `RecordSchema`: the arguments of a tool
* `RecordSchema.toFields`: the advertised form
-/

namespace HdlReview.Tools

open HdlReview.Json

/-- Which values an argument may take. -/
inductive Schema where
  /-- A text. -/
  | text
  /-- A number. -/
  | number
  /-- One of some texts. -/
  | choice (names : List String)
  /-- Null, or what another schema allows. -/
  | nullable (inner : Schema)
deriving DecidableEq, Repr

/-- The fields that describe a schema. -/
def Schema.toFields : Schema → Fields
  | text => [("type", .str "string")]
  | number => [("type", .str "number")]
  | choice names => [("enum", .texts names), ("type", .str "string")]
  | nullable inner => [("anyOf", .list [.obj inner.toFields, .obj [("type", .str "null")]])]

/-- An argument with its schema. An argument without a default is required. -/
structure Property where
  name : String
  description : Option String
  schema : Schema
  default : Option Value
deriving Repr

/-- A name with its first letter large and the others small. -/
def titleCase (name : String) : String :=
  match name.toList with
  | [] => ""
  | c :: rest => String.ofList (c.toUpper :: rest.map Char.toLower)

/-- A property as a data value. -/
def Property.toValue (p : Property) : Value :=
  .obj (p.schema.toFields ++ (p.default.map fun v => ("default", v)).toList ++
    (p.description.map fun d => ("description", .str d)).toList ++
    [("title", .str (titleCase p.name))])

/-- The arguments of a tool. -/
structure RecordSchema where
  title : String
  description : String
  properties : List Property
deriving Repr

namespace RecordSchema

/-- The names of the required arguments. -/
def requiredNames (s : RecordSchema) : List String :=
  (s.properties.filter fun p => p.default.isNone).map Property.name

/-- **The advertised form** of a record schema. -/
def toFields (s : RecordSchema) : Fields :=
  [("description", .str s.description),
    ("properties", .obj (s.properties.map fun p => (p.name, p.toValue))),
    ("required", .texts s.requiredNames), ("title", .str s.title), ("type", .str "object")]

end RecordSchema

end HdlReview.Tools
