import HdlReview.Audit.Logger
import HdlReview.Service.Body
import HdlReview.Service.Route
import HdlReview.Tools.Registry

/-!
# The server

The server answers one request after the other. Its state is what the requests so far have left:
the directory with the audit log, and the clock readings that are still to come. Each request comes
on an occasion, which supplies the identifier and the time of its audit entry.

## Main definitions

* `Config`, `State`, `Occasion`: what stays, what changes and what comes with a request
* `Reading`: a reading of the clock
* `Outcome`: a response with its log records, and the state after it
* `respond config occasion state request`: the outcome of a request
* `serve config state requests`: the outcomes of some requests in order
-/

namespace HdlReview.Service

open HdlReview.Json HdlReview.Validation HdlReview.Decimal HdlReview.Lint HdlReview.Advice
open HdlReview.Audit HdlReview.Tools HdlReview.Text

/-- What stays the same from request to request: the greatest length of code, the logger, and how
many lists and objects inside each other a response can show of a faulty body and of the faulty
arguments of a tool. -/
structure Config where
  maxCodeLength : Int
  logger : Logger
  bodyDepth : Nat
  argumentDepth : Nat

/-- A reading of the clock in seconds, a whole number of them or not. -/
inductive Reading where
  | whole (n : Int)
  | fraction (x : Double)
deriving DecidableEq, Repr

namespace Reading

/-- The reading as a double. -/
def toDouble : Reading → Double
  | whole n => .ofInt n
  | fraction x => x

/-- The milliseconds from one reading to another. Between whole numbers the difference is exact. -/
def millisecondsTo : Reading → Reading → Double
  | whole a, whole b => .ofInt ((b - a) * 1000)
  | a, b => (b.toDouble.sub a.toDouble).mul (.ofInt 1000)

end Reading

/-- What requests change: the files, and the clock readings to come. -/
structure State where
  directory : Directory
  readings : List Reading

/-- What comes with a request: an identifier and the time, in seconds since 1970. -/
structure Occasion where
  requestId : String
  now : Int

/-- A response with its log records, and the state after it. -/
structure Outcome where
  response : Response
  records : List Log.Record
  state : State

/-- The outcome that is no more than a response. -/
def State.answer (s : State) (response : Response) : Outcome :=
  ⟨response, [], s⟩

/-! ## Audit entries -/

/-- The outcome with an entry recorded. Where nothing can be recorded, the response is the one to an
internal error. -/
def Outcome.audit (config : Config) (occasion : Occasion) (e : Entry) (o : Outcome) : Outcome :=
  let logged := config.logger.log occasion.now e o.state.directory
  ⟨if logged.error?.isSome then .internalError else o.response, o.records ++ logged.records,
    { o.state with directory := logged.directory }⟩

/-- The entry of a review. -/
def reviewEntry (occasion : Occasion) (language : Language) (totalIssues : Nat)
    (elapsed : Double) : Entry :=
  ⟨occasion.requestId, "analyze", some language.name, totalIssues, elapsed.roundPlaces 2⟩

/-- The entry of an advice. -/
def adviceEntry (occasion : Occasion) (operation : String) : Entry :=
  ⟨occasion.requestId, operation, none, 0, .zero false⟩

/-! ## Operations -/

/-- The version of the service. -/
def version : String := "1.0.0"

/-- What the service says of its health: its version and its rules. -/
def healthValue : Value :=
  .obj [("status", .str "ok"), ("version", .str version),
    ("rules", .obj (Engine.standard.tables.map fun (l, t) => (l.name, .texts t.ids)))]

/-- The next clock reading, zero if there are no more. -/
def State.nextReading (s : State) : Reading :=
  s.readings.headD (.fraction (.zero false))

/-- The state after a clock reading. -/
def State.afterReading (s : State) : State :=
  { s with readings := s.readings.tail }

/-- The milliseconds between the next two clock readings. -/
def State.elapsed (s : State) : Double :=
  s.nextReading.millisecondsTo s.afterReading.nextReading

/-- The log record of a review. -/
def reviewRecord (r : ReviewRequest) (report : Report) (elapsed : Double) : Log.Record :=
  ⟨"hdlguard.api.analyze", .info,
    r.language.name ++ ": " ++ report.summary ++ " (" ++ elapsed.fixed 1 ++ " ms)"⟩

/-- The response to code that is too long, which names the limit. -/
def tooLong (limit : Int) : Response :=
  match writeInt limit with
  | .ok text => .detail 400 ("Code exceeds maximum length of " ++ text ++ " characters")
  | .error _ => .internalError

/-- **The review of a request**, unless its code is too long. -/
def reviewOutcome (config : Config) (occasion : Occasion) (s : State) (r : ReviewRequest) :
    Outcome :=
  if config.maxCodeLength < r.code.length then s.answer (tooLong config.maxCodeLength)
  else
    let (report, records) := reviewed r.language r.code.toList
    Outcome.audit config occasion (reviewEntry occasion r.language report.totalIssues s.elapsed)
      ⟨.data 200 report.toValue, records ++ [reviewRecord r report s.elapsed],
        s.afterReading.afterReading⟩

/-- The texts of a request that its result repeats. -/
def repeated : Result → List (List Segment)
  | .review _ => []
  | .timing _ => [[.field "issue"]]
  | .crossing _ => [[.field "description"]]

/-- The response that sends the result of the request that a body holds. Texts are never too
deep. -/
def sendResult (body : Value RawText) (result : Result) : Response :=
  .repeating 0 (partsAt (repeated result) body) (.data 200 result.toValue)

/-- Advice on timing as it is sent: a frequency that is not finite is left out. -/
def sentGuidance (g : TimingGuidance) : TimingGuidance :=
  { g with clockFrequency := g.clockFrequency.filter Double.isFinite }

/-- **The advice on timing** of a request. -/
def timingOutcome (config : Config) (occasion : Occasion) (s : State) (p : Posted TimingRequest) :
    Outcome :=
  let guidance :=
    timingGuidance p.request.issue p.request.clockFrequency p.request.violation
  Outcome.audit config occasion (adviceEntry occasion "timing")
    (s.answer (sendResult p.body (.timing (sentGuidance guidance))))

/-- **The advice on a crossing** of a request. -/
def crossingOutcome (config : Config) (occasion : Occasion) (s : State)
    (p : Posted CrossingRequest) : Outcome :=
  Outcome.audit config occasion (adviceEntry occasion "cdc")
    (s.answer (sendResult p.body
      (.crossing (crossingGuidance p.request.description p.request.signalType))))

/-- **The call of a tool**. -/
def toolOutcome (config : Config) (s : State) (name : String) (p : Posted Fields) : Outcome :=
  match execute name (.obj p.request) with
  | .ok (result, records) => ⟨sendResult p.body result, records, s⟩
  | .error (.rejected r) =>
    s.answer (.repeating config.argumentDepth (partsAt (r.faults.map Fault.place) p.body)
      (.plainFaults r.faults))
  | .error _ => s.answer (.detail 404 ("Unknown tool: " ++ name))

/-- The outcome of what a body was read as, or of the response that turned it down. -/
def State.withBody {α : Type} (s : State) (outcome : α → Outcome) :
    Except Response α → Outcome
  | .ok a => outcome a
  | .error response => s.answer response

/-- The outcome of an operation. -/
def operate (config : Config) (occasion : Occasion) (s : State) (r : Request) : Route → Outcome
  | .health => s.answer (.data 200 healthValue)
  | .tools => s.answer (.data 200 (.list (descriptors.map Descriptor.toValue)))
  | .review =>
    s.withBody (fun p => reviewOutcome config occasion s p.request)
      (r.read config.bodyDepth .notBody ReviewRequest.readFields)
  | .timing =>
    s.withBody (timingOutcome config occasion s)
      (r.read config.bodyDepth .notBody TimingRequest.readFields)
  | .crossing =>
    s.withBody (crossingOutcome config occasion s)
      (r.read config.bodyDepth .notBody CrossingRequest.readFields)
  | .tool name =>
    s.withBody (toolOutcome config s name) (r.read config.bodyDepth .notObject .ok)

/-! ## Requests -/

/-- **The outcome of a request**: of its operation, if the path leads to one and the method is the
right one. -/
def respond (config : Config) (occasion : Occasion) (s : State) (r : Request) : Outcome :=
  match Route.ofPath? r.target.path with
  | some route =>
    if r.method = route.method then operate config occasion s r route
    else s.answer (.methodNotAllowed route.method)
  | none =>
    match slashless? r.target with
    | some target => s.answer (.redirect target)
    | none => s.answer .notFound

/-- **The outcomes of some requests in order**, each in the state that the one before left. -/
def serve (config : Config) : State → List (Occasion × Request) → List Outcome
  | _, [] => []
  | s, (occasion, r) :: rest =>
    let o := respond config occasion s r
    o :: serve config o.state rest

end HdlReview.Service
