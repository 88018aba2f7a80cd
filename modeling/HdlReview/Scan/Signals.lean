import HdlReview.Scan.Search

/-!
# Names in a source

What the rules ask of a source: the identifiers in it, those that are not structural keywords, the
names in a sensitivity list, the clocks of the headers, and the targets of assignments with the
number of times each is assigned. Text in comments and strings counts like any other.

## Main definitions

* `identifiers s`, `orderedSignals s`: identifiers, and those of them that are not structural
  keywords, each once in order of first appearance
* `listedSignals list`: the names in a sensitivity list
* `hasEdgeHeader s`, `clockSignals s`: whether a header names a clock edge; the first clock of each
  header
* `assignmentCounts s`: the targets of assignments and how often each is assigned
-/

namespace HdlReview.Scan

open HdlReview.Text

/-- The identifiers of a source, each once in order of first appearance. -/
def identifiers (s : List Char) : List (List Char) :=
  ((findAll .identifier s).map (·.text)).eraseDups

/-- The keywords of block structure. -/
def structuralKeywords : List (List Char) :=
  ["always".toList, "if".toList, "else".toList, "case".toList, "begin".toList, "end".toList,
    "module".toList, "endmodule".toList]

/-- The identifiers that are not structural keywords. -/
def orderedSignals (s : List Char) : List (List Char) :=
  (identifiers s).filter fun name => !structuralKeywords.contains name

/-- The names in the text of a sensitivity list, each once. -/
def listedSignals (list : List Char) : List (List Char) :=
  (((cut .separator list).map trimBlanks).filter (· != [])).eraseDups

/-- The texts of the sensitivity lists of all headers. -/
def headerLists (s : List Char) : List (List Char) :=
  (findAll .header s).map (·.group)

/-- Whether some header names a clock edge. -/
def hasEdgeHeader (s : List Char) : Bool :=
  (headerLists s).any fun list => contains .edge list

/-- The clock of a sensitivity list: the first name behind `posedge`. -/
def clockOf? (list : List Char) : Option (List Char) :=
  (search .posedge list).map (·.group)

/-- The clocks of all headers, each once. -/
def clockSignals (s : List Char) : List (List Char) :=
  ((headerLists s).filterMap clockOf?).eraseDups

/-- The targets of all assignments in order, with repetitions. -/
def assignmentTargets (s : List Char) : List (List Char) :=
  (findAll .assignment s).map (·.group)

/-- The targets of assignments in order of first appearance, and how often each is assigned. -/
def assignmentCounts (s : List Char) : List (List Char × Nat) :=
  let targets := assignmentTargets s
  targets.eraseDups.map fun name => (name, targets.count name)

end HdlReview.Scan
