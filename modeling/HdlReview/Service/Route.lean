import HdlReview.Service.Target

/-!
# Routes

A path leads to one of the operations of the service, each with one method. A fixed path may be
followed by a line feed. The path of a tool ends in the name of the tool, which is anything but
empty and has no slash.

## Main definitions

* `Route`: the operations; `Route.method`
* `Route.ofPath? path`: the operation of a path
* `slashless? t`: the target without slashes at its end, if it had any and now leads somewhere
-/

namespace HdlReview.Service

/-- The operations of the service. -/
inductive Route where
  | health
  | review
  | timing
  | crossing
  | tools
  | tool (name : String)
deriving DecidableEq, Repr

namespace Route

/-- The method of an operation. -/
def method : Route → String
  | health => "GET"
  | review => "POST"
  | timing => "POST"
  | crossing => "POST"
  | tools => "GET"
  | tool _ => "POST"

/-- The operations with a fixed path. -/
def fixedPaths : List (List Char × Route) :=
  [("/health".toList, health), ("/analyze".toList, review), ("/timing".toList, timing),
    ("/cdc".toList, crossing), ("/tools".toList, tools)]

/-- The operation with a fixed path. -/
def ofFixedPath? (path : List Char) : Option Route :=
  (fixedPaths.find? fun (p, _) => path = p ∨ path = p ++ ['\n']).map (·.2)

/-- What comes before the name of a tool. -/
def toolsFolder : List Char := "/tools/".toList

/-- The call of a tool that a path stands for. -/
def ofToolPath? (path : List Char) : Option Route :=
  let name := path.drop toolsFolder.length
  if toolsFolder.isPrefixOf path ∧ name ≠ [] ∧ '/' ∉ name then some (tool (String.ofList name))
  else none

/-- **The operation of a path**. -/
def ofPath? (path : List Char) : Option Route :=
  (ofFixedPath? path).or (ofToolPath? path)

end Route

/-- The characters without slashes at the end. -/
def dropLastSlashes (s : List Char) : List Char :=
  (s.reverse.dropWhile (· = '/')).reverse

/-- The target without slashes at its end, if it had any and then leads to an operation. -/
def slashless? (t : Target) : Option Target :=
  let path := dropLastSlashes t.path
  if path ≠ t.path ∧ (Route.ofPath? path).isSome then some { t with path } else none

end HdlReview.Service
