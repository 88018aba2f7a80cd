import HdlReview.Decimal.Notation
import HdlReview.Text.Quoted
import HdlReview.Text.Utf8

/-!
# Files in directories

A log is a file in one of the directories that there are: the working directory, those above it, and
any others. Directories are never made, so a path that leads through another name ends in an error.
Paths and the names on them have a greatest length in octets. An attempt to open a file may also
fail for reasons that no path shows; which attempts do is up to the system. Opening a file makes it
if it is not there, and text is added at its end.

## Main definitions

* `Path`, `Path.ofText`, `Path.text`: paths as components, without empty ones and single dots
* `Obstacle`: why a file cannot be opened, and its wording
* `Directory`: the files and directories that there are, and the attempts that are to fail
* `Directory.openFile path d`: the directory after an attempt to open a file, and the obstacle to it
* `Directory.append path s d`: the directory with some text added to an open file
-/

namespace HdlReview.Audit

open HdlReview.Text HdlReview.Decimal

/-! ## Paths -/

/-- A path: the slashes of its root, if any, and its components. -/
structure Path where
  root : String
  parts : List String
deriving DecidableEq, Repr

namespace Path

/-- The root of a path text. Two slashes are kept, more are taken for one. -/
def rootOf (s : List Char) : String :=
  match (s.takeWhile (· = '/')).length with
  | 0 => ""
  | 2 => "//"
  | _ => "/"

/-- The path that a text names. -/
def ofText (s : String) : Path :=
  ⟨rootOf s.toList,
    ((s.toList.splitOn '/').map String.ofList).filter fun part => part ≠ "" ∧ part ≠ "."⟩

/-- The text of a path. -/
def text (p : Path) : String :=
  if p.root = "" ∧ p.parts = [] then "." else p.root ++ "/".intercalate p.parts

/-- The path without the steps upwards at its end. -/
def base (p : Path) : Path :=
  { p with parts := (p.parts.reverse.dropWhile (· = "..")).reverse }

/-- The paths that lead to a path, the shortest first, each with the name that comes next. -/
def steps (p : Path) : List (Path × String) :=
  (List.range p.parts.length).zipWith (fun k name => ({ p with parts := p.parts.take k }, name))
    p.parts

/-- Whether a name on a path holds the null character, which no file system takes. -/
def hasNull (p : Path) : Bool :=
  p.parts.any fun name => name.toList.contains '\x00'

end Path

/-- A path has fewer octets than this. -/
def pathLimit : Nat := 4096

/-- A name on a path has at most this many octets. -/
def nameLimit : Nat := 255

/-! ## Directories -/

/-- Why a file cannot be opened: the number of the error, and what it is called. -/
structure Obstacle where
  number : Nat
  reason : String
deriving DecidableEq, Repr

namespace Obstacle

/-- There is no such directory. -/
def missing : Obstacle := ⟨2, "No such file or directory"⟩

/-- A file stands in place of a directory. -/
def notDirectory : Obstacle := ⟨20, "Not a directory"⟩

/-- A directory stands in place of the file. -/
def isDirectory : Obstacle := ⟨21, "Is a directory"⟩

/-- The path or a name on it is too long. -/
def tooLong : Obstacle := ⟨36, "File name too long"⟩

/-- The wording of an obstacle on a path. -/
def message (o : Obstacle) (p : Path) : String :=
  "[Errno " ++ natText o.number ++ "] " ++ o.reason ++ ": " ++ quote p.text

end Obstacle

/-- The files that there are with their texts, the directories besides the working directory, those
above it and the root, and what the system has against the attempts to come, one by one. It has
nothing against attempts beyond the list. -/
structure Directory where
  files : List (Path × List Char)
  folders : List Path
  denials : List (Option Obstacle)
deriving Repr

namespace Directory

/-- The directory without files, in which any file can be made. -/
def empty : Directory := ⟨[], [], []⟩

/-- Whether a path leads to a directory. Upwards from a directory there is always another. -/
def leads (d : Directory) (p : Path) : Bool :=
  p.base.parts.isEmpty || d.folders.contains p.base

/-- The text of a file. -/
def contents? (d : Directory) (p : Path) : Option (List Char) :=
  (d.files.find? fun (q, _) => q = p).map (·.2)

/-- What stands in the way at a path that has to be a directory. -/
def leadingObstacle? (d : Directory) (p : Path) : Option Obstacle :=
  if d.leads p then none
  else if (d.contents? p).isSome then some .notDirectory
  else some .missing

/-- What stands in the way of one step on a path: a path that is no directory, or a long name. -/
def stepObstacle? (d : Directory) (step : Path × String) : Option Obstacle :=
  match d.leadingObstacle? step.1 with
  | some o => some o
  | none => if nameLimit < octetCount step.2 then some .tooLong else none

/-- What stands in the way of a file on its path: the length of the path, or the first obstacle on
it. -/
def obstacle? (d : Directory) (p : Path) : Option Obstacle :=
  if pathLimit ≤ octetCount p.text then some .tooLong
  else
    match p.steps.findSome? d.stepObstacle? with
    | some o => some o
    | none => if d.leads p then some .isDirectory else none

/-- What the coming attempt to open a file meets: what the system has against it, or what stands in
the way on the path. -/
def refusal? (d : Directory) (p : Path) : Option Obstacle :=
  match d.denials.head? with
  | some (some o) => some o
  | _ => d.obstacle? p

/-- The files with some text added at the end of one. -/
def extend (p : Path) (s : List Char) : List (Path × List Char) → List (Path × List Char)
  | [] => [(p, s)]
  | (q, t) :: files => if q = p then (q, t ++ s) :: files else (q, t) :: extend p s files

/-- **The directory with some text added to an open file**. -/
def append (p : Path) (s : List Char) (d : Directory) : Directory :=
  { d with files := extend p s d.files }

/-- **Opening a file** to add text to it: the directory after the attempt, and the obstacle if there
is one. -/
def openFile (p : Path) (d : Directory) : Directory × Option Obstacle :=
  let next := { d with denials := d.denials.tail }
  match d.refusal? p with
  | some o => (next, some o)
  | none => (next.append p [], none)

/-- The text of a file that was extended has the new text at its end. -/
theorem contents?_append (p : Path) (s : List Char) (d : Directory) :
    (d.append p s).contents? p = some ((d.contents? p).getD [] ++ s) := by
  obtain ⟨files, folders, denials⟩ := d
  induction files with
  | nil => simp [append, extend, contents?]
  | cons f files ih =>
    by_cases h : f.1 = p
    · simp [append, extend, contents?, h]
    · simpa [append, extend, contents?, h] using ih

end Directory

end HdlReview.Audit
