import HdlReview.Audit.Directory
import HdlReview.Audit.Entry
import HdlReview.Log

/-!
# The audit log

A logger appends one line for each entry to its file, if it is enabled. If the file cannot be
opened, the entry is reported in the program's own log and is otherwise lost. A path with a null
character is not a path at all, and recording or reading under it is an error. An entry that cannot
be written is an error too, which shows only when the file is open.

## Main definitions

* `Logger`: a file and whether it is written
* `LogError`: why nothing can be recorded or read, and its wording
* `Logged`: the directory after an entry, the log records, and the error
* `Logger.log l now e d`: what comes of recording an entry
* `Logger.contents? l d`: the text of the logger's file
* `Logger.read l d`: the same, or the error
-/

namespace HdlReview.Audit

/-- A file for entries, and whether they are written. -/
structure Logger where
  path : Path
  enabled : Bool
deriving DecidableEq, Repr

/-- The file for entries if no other is given. -/
def standardPath : String := "audit.jsonl"

/-- The log record of an entry whose file could not be opened. -/
def lossRecord (e : Entry) (o : Obstacle) (p : Path) : Log.Record :=
  ⟨"hdlguard.audit", .error,
    "Failed to write audit entry for " ++ e.operation ++ ": " ++ o.message p⟩

/-- Why nothing can be recorded or read. -/
inductive LogError where
  /-- The path holds a null character. -/
  | nullCharacter
  /-- The entry cannot be written. -/
  | unwritable (e : Decimal.WritingError)
deriving DecidableEq, Repr

/-- The wording of an error. -/
def LogError.message : LogError → String
  | nullCharacter => "embedded null byte"
  | unwritable e => e.message

/-- What comes of recording an entry: the directory after it, the log records, and the error if
there is one. -/
structure Logged where
  directory : Directory
  records : List Log.Record
  error? : Option LogError

namespace Logger

/-- The logger with given options. An empty path counts as none. -/
def ofOptions (path : Option String) (enabled : Bool) : Logger :=
  let given := path.getD ""
  ⟨.ofText (if given = "" then standardPath else given), enabled⟩

/-- The text of the logger's file. -/
def contents? (l : Logger) (d : Directory) : Option (List Char) :=
  d.contents? l.path

/-- **Reading the logger's file**. -/
def read (l : Logger) (d : Directory) : Except LogError (Option (List Char)) :=
  if l.path.hasNull then .error .nullCharacter else .ok (l.contents? d)

/-- **Recording an entry**. -/
def log (l : Logger) (now : Int) (e : Entry) (d : Directory) : Logged :=
  if l.enabled then
    if l.path.hasNull then ⟨d, [], some .nullCharacter⟩
    else
      match d.openFile l.path with
      | (opened, some o) => ⟨opened, [lossRecord e o l.path], none⟩
      | (opened, none) =>
        match e.line now with
        | .ok line => ⟨opened.append l.path line, [], none⟩
        | .error x => ⟨opened, [], some (.unwritable x)⟩
  else ⟨d, [], none⟩

end Logger

end HdlReview.Audit
