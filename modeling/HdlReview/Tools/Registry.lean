import HdlReview.Lint.Engine
import HdlReview.Tools.Request
import HdlReview.Tools.Schema

/-!
# Tools

The three operations of the program are offered as tools. A tool is called by its name with
arguments given as a data value; the arguments are read as a request first. Each tool is described
with the schema of its arguments.

## Main definitions

* `Tool`: the tools; `Tool.name`, `Tool.description`, `Tool.parameters` describe them
* `Call`, `Result`: a request that was read, and its outcome
* `Descriptor`, `descriptors`: the descriptions
* `Descriptor.dump`: a description as it is handed out
* `execute name arguments`: the outcome of a call with its log records, or the `CallError`
* `executeNamed name arguments`: the same with a data value in place of the name
-/

namespace HdlReview.Tools

open HdlReview.Json HdlReview.Validation HdlReview.Lint HdlReview.Advice HdlReview.Text

/-- The tools. -/
inductive Tool where
  | review
  | timing
  | crossing
deriving DecidableEq, Repr

namespace Tool

/-- All tools in the order in which they are described. -/
def all : List Tool :=
  [review, timing, crossing]

/-- The name under which a tool is called. -/
def name : Tool → String
  | review => "analyzeVerilog"
  | timing => "timingAnalysis"
  | crossing => "detectCDCIssues"

/-- What a tool is for. -/
def description : Tool → String
  | review =>
    "Analyze Verilog or VHDL code for common synthesis and design issues: latch inference, " ++
      "incomplete case statements, clock domain crossing, blocking vs non-blocking assignments " ++
      "and sensitivity list problems"
  | timing =>
    "Provide guidance on timing analysis and optimization: setup and hold violations, critical " ++
      "path analysis, clock period constraints"
  | crossing =>
    "Guidance on clock domain crossing: synchronizers, multi-bit bus crossing, handshakes and " ++
      "CDC verification tools"

/-- The arguments of a tool. -/
def parameters : Tool → RecordSchema
  | review =>
    ⟨ReviewRequest.title, "Request body for /analyze.",
      [⟨"code", some "The Verilog or VHDL code to analyze", .text, none⟩,
        ⟨"language", some "The hardware description language",
          .choice (Language.members.map (·.1)), none⟩]⟩
  | timing =>
    ⟨TimingRequest.title, "Request body for /timing.",
      [⟨"issue", some "Description of the timing issue", .text, none⟩,
        ⟨"clockFrequency", some "Target clock frequency in MHz", .nullable .number, some .null⟩,
        ⟨"violationType", none, .choice (Violation.members.map (·.1)), some (.str "unknown")⟩]⟩
  | crossing =>
    ⟨CrossingRequest.title, "Request body for /cdc.",
      [⟨"description", some "Description of the CDC scenario", .text, none⟩,
        ⟨"signalType", none, .nullable (.choice (SignalType.members.map (·.1))), some .null⟩]⟩

/-- The tool with a name. -/
def ofName? (name : String) : Option Tool :=
  all.find? fun t => t.name = name

end Tool

/-! ## Descriptions -/

/-- A description of a tool. -/
structure Descriptor where
  name : String
  description : String
  parameters : Fields
deriving Repr

namespace Descriptor

/-- A description as a data value. -/
def toValue (d : Descriptor) : Value :=
  .obj [("name", .str d.name), ("description", .str d.description),
    ("parameters", .obj d.parameters)]

/-- Parameters have at most this many levels below them when they are handed out. -/
def levelLimit : Nat := 255

/-- Why a description cannot be handed out. -/
inductive DumpError where
  /-- The parameters have too many levels. -/
  | tooDeep
deriving DecidableEq, Repr

/-- The wording of an error. -/
def DumpError.message : DumpError → String
  | tooDeep => "Maximum serialization depth exceeded"

/-- A description as it is handed out: with finite numbers only, and not too deep. -/
def dump (d : Descriptor) : Except DumpError Value :=
  if levelLimit < fieldsLevels d.parameters then .error .tooDeep
  else .ok { d with parameters := fieldsOnlyFinite d.parameters }.toValue

/-- The fields of a description. -/
def readFields (fields : Fields) : Checked Descriptor :=
  ((Checked.ap (.ok Descriptor.mk) (required "name" text fields)).ap
    (required "description" text fields)).ap
    (optional "parameters" object [] fields)

/-- A description from a data value. -/
def read : Reader Descriptor :=
  record "ToolDescriptor" readFields

end Descriptor

/-- The description of a tool. -/
def Tool.descriptor (t : Tool) : Descriptor :=
  ⟨t.name, t.description, t.parameters.toFields⟩

/-- **The descriptions of all tools**. -/
def descriptors : List Descriptor :=
  Tool.all.map Tool.descriptor

/-! ## Calls -/

/-- A request to a tool. -/
inductive Call where
  | review (r : ReviewRequest)
  | timing (r : TimingRequest)
  | crossing (r : CrossingRequest)
deriving DecidableEq, Repr

/-- The outcome of a call. -/
inductive Result where
  | review (r : Report)
  | timing (g : TimingGuidance)
  | crossing (g : CrossingGuidance)
deriving DecidableEq, Repr

/-- An outcome as a data value. -/
def Result.toValue : Result → Value
  | review r => r.toValue
  | timing g => g.toValue
  | crossing g => g.toValue

/-- A call with one kind of request, from what was read. -/
def Call.of {α : Type} (make : α → Call) : Checked α → Checked Call
  | .ok a => .ok (make a)
  | .error e => .error e

/-- The request to a tool that a data value holds. -/
def Tool.readCall (t : Tool) (v : Value) : Checked Call :=
  match t with
  | review => Call.of .review (ReviewRequest.read v)
  | timing => Call.of .timing (TimingRequest.read v)
  | crossing => Call.of .crossing (CrossingRequest.read v)

/-- **The outcome of a call**, with the log records made on the way. -/
def Call.run : Call → Result × List Log.Record
  | review r =>
    let (report, records) := reviewed r.language r.code.toList
    (.review report, records)
  | timing r => (.timing (timingGuidance r.issue r.clockFrequency r.violation), [])
  | crossing r => (.crossing (crossingGuidance r.description r.signalType), [])

/-- Why a call has no outcome. -/
inductive CallError where
  /-- There is no tool of that name. -/
  | unknownTool (name : Value)
  /-- A list or an object in place of a name. -/
  | notAName (given : Value)
  /-- The arguments are no request to the tool. -/
  | rejected (r : Rejection)
deriving Repr

/-- The wording of an error. A rejection is worded by its faults instead. -/
def CallError.message : CallError → String
  | unknownTool name => spell name
  | notAName given => "unhashable type: " ++ quote (formWord given)
  | rejected _ => ""

/-- The log record of a call. -/
def callRecord (name : String) : Log.Record :=
  ⟨"hdlguard.tools", .info, "Executing tool '" ++ name ++ "'"⟩

/-- **A call by name**, with the log records of the call. -/
def execute (name : String) (arguments : Value) : Except CallError (Result × List Log.Record) :=
  match Tool.ofName? name with
  | none => .error (.unknownTool (.str name))
  | some t =>
    match t.readCall arguments with
    | .error faults => .error (.rejected ⟨t.parameters.title, faults⟩)
    | .ok call => .ok (call.run.1, callRecord name :: call.run.2)

/-- **A call with a data value in place of the name**. Only a text names a tool. -/
def executeNamed (name arguments : Value) : Except CallError (Result × List Log.Record) :=
  match name with
  | .str s => execute s arguments
  | .list _ => .error (.notAName name)
  | .obj _ => .error (.notAName name)
  | _ => .error (.unknownTool name)

end HdlReview.Tools
