import HdlReview.Text.Percent

/-!
# Request targets

A request names its target by a path, with escapes for some characters, and perhaps a query after a
question mark. The escapes of the path are read once; the query stays as it is written. A gateway
hands over the path alone, so there a question mark is a character like any other.

## Main definitions

* `Target`: a path and a query
* `Target.ofText s`: the target that a path with a query names
* `Target.ofPath s`: the target that a path alone names
* `Target.location t`: the full address of a target
-/

namespace HdlReview.Service

open HdlReview.Text

/-- A path with its escapes read, and a query as it is written. -/
structure Target where
  path : List Char
  query : List Char
deriving DecidableEq, Repr

namespace Target

/-- The target that a path alone names. -/
def ofPath (s : List Char) : Target :=
  ⟨unescape s, []⟩

/-- **The target that a path with a query names**. -/
def ofText (s : List Char) : Target :=
  { ofPath (s.takeWhile (· ≠ '?')) with query := (s.dropWhile (· ≠ '?')).drop 1 }

/-- The characters that a path keeps in a full address. -/
def isPathChar (c : Char) : Bool :=
  "/:@!$&'()*+,;=%[]".toList.contains c

/-- The characters that a query keeps in a full address. -/
def isQueryChar (c : Char) : Bool :=
  isPathChar c || c == '#' || c == '?'

/-- The full address of a target. -/
def location (t : Target) : String :=
  let query := if t.query = [] then [] else '?' :: t.query
  String.ofList ("http://testserver".toList ++ escape isPathChar t.path ++ escape isQueryChar query)

end Target

end HdlReview.Service
