import HdlReview.Keyed
import HdlReview.Lint.Rule
import HdlReview.Lint.Summary
import HdlReview.Log

/-!
# Running rules

An engine holds a table of checks for each language and runs them in order on a source. A check
may fail. An ordinary failure becomes an issue of its own and the other checks still run; a fatal
one ends the run, and there is no report. A single check can also be asked for by its id, and then
any failure is passed on. The standard rules never fail.

## Main definitions

* `Failure`: what a failing check says
* `Check`, `Table`, `Engine`: a check, an ordered table of checks, the tables of the languages
* `Progress`, `Progress.check`, `Progress.checkAll`: how far a run has come, one check, many checks
* `Engine.run e language s`: the report of all checks, or a fatal failure, and the log records
* `Engine.runSingle e language id s`: the issues of one check
* `Engine.runNamed`, `Engine.runSingleNamed`: the same for names given as data values
* `review language s`: the report with the standard rules
-/

namespace HdlReview.Lint

open HdlReview.Json HdlReview.Scan HdlReview.Text HdlReview.Decimal

/-! ## Failures -/

/-- A failing check: the name of the cause, what it says, and whether it ends the whole run, as an
order to stop the program does. -/
structure Failure where
  cause : String
  text : String
  fatal : Bool
deriving DecidableEq, Repr

/-- What a failure says of the arguments of its cause: nothing, one text, or several in parentheses.
The key of a failed look-up is quoted. -/
def Failure.textOf (isLookup : Bool) (arguments : List String) : String :=
  match arguments with
  | [] => ""
  | [a] => if isLookup then quote a else a
  | _ => "(" ++ ", ".intercalate (arguments.map quote) ++ ")"

/-! ## Tables -/

/-- A check of a source. -/
abbrev Check := List Char → Except Failure (List Issue)

/-- Checks under their ids, in order, one check to an id. -/
structure Table where
  entries : List (String × Check)
  distinct : (entries.map (·.1)).Nodup

/-- A rule as a check, which never fails. -/
def Rule.toCheck (r : Rule) : Check :=
  fun s => .ok (r.check s)

namespace Table

/-- The table without checks. -/
def empty : Table :=
  ⟨[], List.nodup_nil⟩

/-- The ids of a table, in order. -/
def ids (t : Table) : List String :=
  t.entries.map (·.1)

/-- The table with the check of one id set: at its old place, or at the end if the id is new. -/
def insert (id : String) (check : Check) (t : Table) : Table :=
  ⟨Keyed.insert id check t.entries, Keyed.nodup_insert t.distinct id check⟩

/-- The table of some checks, the last one of an id at the place of the first. -/
def ofEntries (entries : List (String × Check)) : Table :=
  entries.foldl (fun t entry => t.insert entry.1 entry.2) empty

/-- The table of some rules under their ids. -/
def ofRules (rules : List Rule) : Table :=
  ofEntries (rules.map fun r => (r.id, r.toCheck))

end Table

/-- The rules that apply to every language. -/
def commonRules : List Rule :=
  [.longLines]

/-- The rules for a language: its own, then the common ones. -/
def rulesFor : Language → List Rule
  | .verilog =>
    [.latchInference, .blockingInSequential, .incompleteSensitivity, .caseDefault,
      .multipleAssignments, .clockDomainCrossing] ++ commonRules
  | .vhdl => [.vhdlLatchInference, .mixedVariableSignal] ++ commonRules

/-- The tables of an engine. -/
structure Engine where
  tables : List (Language × Table)

namespace Engine

/-- The engine with the standard rules. -/
def standard : Engine :=
  ⟨[.verilog, .vhdl].map fun l => (l, Table.ofRules (rulesFor l))⟩

/-- The engine with given tables, the standard one if none are given. -/
def ofTables (tables : List (Language × Table)) : Engine :=
  if tables.isEmpty then standard else ⟨tables⟩

/-- The table for a language, empty if the engine has none. -/
def table (e : Engine) (language : Language) : Table :=
  ((e.tables.find? fun (l, _) => l = language).map (·.2)).getD .empty

end Engine

/-! ## Running -/

/-- The issue that stands for a failure. -/
def Failure.issue (id : String) (f : Failure) : Issue :=
  ⟨.internalError, .info, none,
    "Rule '" ++ id ++ "' internal error: " ++ f.cause ++ ": " ++ f.text,
    "Report this input to the HDLGuard maintainers", id⟩

/-- The logger of the engine. -/
def engineLogger : String := "hdlguard.engine"

/-- The log record for a failing check. -/
def failureRecord (id : String) : Log.Record :=
  ⟨engineLogger, .error, "Rule '" ++ id ++ "' failed"⟩

/-- **How far a run has come**: the ids of the checks so far, their issues, the log records, and the
failure that has ended the run, if there was one. -/
structure Progress where
  executed : List String
  issues : List Issue
  records : List Log.Record
  ended : Option Failure

namespace Progress

/-- The progress before the first check. -/
def start : Progress :=
  ⟨[], [], [], none⟩

/-- **One check of a run**. Its issues are added to those before. An ordinary failure is logged and
shown as an issue; a fatal one ends the run. -/
def check (s : List Char) (p : Progress) (entry : String × Check) : Progress :=
  let executed := p.executed ++ [entry.1]
  match entry.2 s with
  | .ok issues => { p with executed, issues := p.issues ++ issues }
  | .error f =>
    if f.fatal then { p with executed, ended := some f }
    else
      { p with
        executed
        issues := p.issues ++ [f.issue entry.1]
        records := p.records ++ [failureRecord entry.1] }

/-- **The checks of a run**, one after the other until one ends it. -/
def checkAll (s : List Char) (p : Progress) (entries : List (String × Check)) : Progress :=
  entries.foldl (fun p entry => if p.ended.isSome then p else p.check s entry) p

/-- The report of a run. -/
def report (language : Language) (p : Progress) : Report :=
  ⟨p.issues.length, p.issues, summarize p.issues, some language, p.executed⟩

/-- The log record at the end of a run. -/
def endRecord (language : Language) (s : List Char) (p : Progress) : Log.Record :=
  ⟨engineLogger, .debug,
    "Analyzed " ++ natText (lines s).length ++ " " ++ language.name ++ " lines, " ++
      natText p.issues.length ++ " issue(s) from " ++ natText p.executed.length ++ " rules"⟩

/-- The report and the log records of a run that has come to its end. -/
def finish (language : Language) (s : List Char) (p : Progress) : Report × List Log.Record :=
  (p.report language, p.records ++ [p.endRecord language s])

end Progress

/-- The run of all checks of a table on a source. -/
def Table.progress (t : Table) (s : List Char) : Progress :=
  Progress.start.checkAll s t.entries

/-- What can go wrong when a review is asked for. -/
inductive ReviewError where
  /-- There is no such language. -/
  | unknownLanguage (given : Value)
  /-- The language has no such rule. -/
  | unknownRule (given : Value)
  /-- A value that cannot be a key was given for an id. -/
  | notAKey (given : Value)
  /-- The rule failed. -/
  | failed (f : Failure)

/-- The wording of an error. -/
def ReviewError.message : ReviewError → String
  | unknownLanguage given => spell given ++ " is not a valid Language"
  | unknownRule given => "Unknown rule: " ++ spellPlain given
  | notAKey given => "unhashable type: " ++ quote (formWord given)
  | failed f => f.text

namespace Engine

/-- **All checks for a language**: the report, or the failure that ended the run, and the log
records. -/
def run (e : Engine) (language : Language) (s : List Char) :
    Except Failure Report × List Log.Record :=
  let p := (e.table language).progress s
  match p.ended with
  | some f => (.error f, p.records)
  | none =>
    let (report, records) := p.finish language s
    (.ok report, records)

/-- **One check**: its issues, or why there are none. -/
def runSingle (e : Engine) (language : Language) (id : String) (s : List Char) :
    Except ReviewError (List Issue) :=
  match Keyed.get? id (e.table language).entries with
  | none => .error (.unknownRule (.str id))
  | some check =>
    match check s with
    | .ok issues => .ok issues
    | .error f => .error (.failed f)

end Engine

/-- The language that a data value names. -/
def Language.ofValue (v : Value) : Except ReviewError Language :=
  match v with
  | .str s =>
    match Keyed.get? s Language.members with
    | some l => .ok l
    | none => .error (.unknownLanguage v)
  | _ => .error (.unknownLanguage v)

namespace Engine

/-- All checks for a language given as a data value. -/
def runNamed (e : Engine) (language : Value) (s : List Char) :
    Except ReviewError Report × List Log.Record :=
  match Language.ofValue language with
  | .error unknown => (.error unknown, [])
  | .ok l =>
    let (outcome, records) := e.run l s
    (outcome.mapError .failed, records)

/-- One check, the language and the id given as data values. The language is looked at first. -/
def runSingleNamed (e : Engine) (language id : Value) (s : List Char) :
    Except ReviewError (List Issue) := do
  let l ← Language.ofValue language
  match id with
  | .str i => e.runSingle l i s
  | .list _ => .error (.notAKey id)
  | .obj _ => .error (.notAKey id)
  | _ => .error (.unknownRule id)

end Engine

/-- The report and the log records of a run of the standard rules, which always comes to its end. -/
def reviewed (language : Language) (s : List Char) : Report × List Log.Record :=
  ((Engine.standard.table language).progress s).finish language s

/-- **A review** with the standard rules. -/
def review (language : Language) (s : List Char) : Report :=
  (reviewed language s).1

end HdlReview.Lint
