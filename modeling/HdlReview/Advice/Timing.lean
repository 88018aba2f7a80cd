import HdlReview.Validation.Reader

/-!
# Advice on timing closure

Advice on a timing problem is a list of steps that depends on the type of the violation, and a
step on the clock period if a frequency is given. The period of a frequency in megahertz is
written in nanoseconds with three places, from the double nearest to the exact quotient; a
frequency of zero has an infinite period with the sign of the zero. The step shows the frequency in
the form in which it was given; there is no step for an integer with more digits than are written.

## Main definitions

* `Violation`, `Frequency`: types of violations, and frequencies as they are given
* `TimingStep`, `TimingGuidance`
* `Frequency.period f`: the period in nanoseconds
* `clockStep f`: the step on the clock period, or the error
* `timingGuidance issue clock violation`: the advice
* `timingGuidanceFor issue frequency violation steps`: the advice for a frequency as it is given
* `read`, `toValue` of both records
-/

namespace HdlReview.Advice

open HdlReview.Json HdlReview.Validation HdlReview.Decimal

/-- The type of a timing violation. -/
inductive Violation where
  | setup
  | hold
  | both
  | unknown
deriving DecidableEq, Repr

/-- The name of a type of violations. -/
def Violation.name : Violation → String
  | setup => "setup"
  | hold => "hold"
  | both => "both"
  | unknown => "unknown"

/-- The types of violations by name. -/
def Violation.members : List (String × Violation) :=
  [setup, hold, both, unknown].map fun v => (v.name, v)

/-- One step of advice, with commands where there are any. -/
structure TimingStep where
  step : String
  description : String
  commands : Option (List String)
deriving DecidableEq, Repr

/-- Advice on a timing problem. -/
structure TimingGuidance where
  issue : String
  violation : Violation
  clockFrequency : Option Double
  guidance : List TimingStep
  generalTips : List String
deriving DecidableEq, Repr

/-! ## Steps -/

/-- What helps with every timing problem. -/
def generalTips : List String :=
  ["Use register-to-register paths for best timing", "Avoid long combinational clouds",
    "Balance clock tree carefully",
    "Consider using timing exceptions for known multi-cycle paths",
    "Use synthesis constraints to guide optimization"]

/-- The steps for a setup violation. -/
def setupSteps : List TimingStep :=
  [⟨"Identify Critical Path", "Run timing analysis to find the longest combinational path",
      some ["report_timing -from [all_registers] -to [all_registers] -max_paths 10",
        "report_timing -delay_type max -path_type full_clock"]⟩,
    ⟨"Analyze Path Components",
      "Break down the delay into: logic delay, net delay, and cell delay",
      some ["report_timing -path full_clock -delay max -nets"]⟩,
    ⟨"Optimization Strategies", "Consider these approaches to reduce critical path delay",
      some ["// Add pipeline stages to break up long paths",
        "// Use faster cells in the critical path", "// Reduce fanout of high-fanout nets",
        "// Consider multi-cycle path constraints if applicable"]⟩]

/-- The steps for a hold violation. -/
def holdSteps : List TimingStep :=
  [⟨"Check Hold Violations", "Hold violations often indicate clock skew or fast data paths",
      some ["report_timing -delay_type min", "report_clock_skew"]⟩,
    ⟨"Hold Fixing", "Tools typically fix hold violations automatically, but you can:",
      some ["// Add delay buffers in the data path", "// Balance clock tree to reduce skew",
        "// Check for inappropriate multi-cycle paths"]⟩]

/-- The steps that a type of violations calls for. -/
def violationSteps : Violation → List TimingStep
  | .setup => setupSteps
  | .hold => holdSteps
  | .both => setupSteps ++ holdSteps
  | .unknown => []

/-! ## The clock period -/

/-- A frequency in megahertz, in the form in which it is given. -/
inductive Frequency where
  | int (n : Int)
  | float (x : Double)
  | flag (b : Bool)
deriving DecidableEq, Repr

namespace Frequency

/-- The frequency as a data value. -/
def toValue : Frequency → Value
  | int n => .int n
  | float x => .float x
  | flag b => .bool b

/-- The period of an integral frequency. -/
def intPeriod (n : Int) : Double :=
  if n = 0 then .inf false else .ofRatio (n < 0) 1000 n.natAbs

/-- The period of a frequency that is a double. -/
def doublePeriod (x : Double) : Double :=
  match x with
  | .finite negative 0 _ => .inf negative
  | x => .quotient 1000 x

/-- **The period in nanoseconds**: the double nearest to the quotient of a thousand by the
frequency, and infinity with the sign of the frequency for a zero. -/
def period : Frequency → Double
  | int n => intPeriod n
  | float x => doublePeriod x
  | flag b => intPeriod (if b then 1 else 0)

/-- The text of the period, with three places. -/
def periodText (f : Frequency) : String :=
  f.period.fixed 3

end Frequency

/-- The text of a frequency in the form in which it is given. -/
def Frequency.text : Frequency → Except WritingError String
  | int n => writeInt n
  | float x => .ok x.text
  | flag b => .ok (spell (.bool b))

/-- The step on the clock with the texts of a period and a frequency. -/
def periodStep (period frequency : String) : TimingStep :=
  ⟨"Clock Period Analysis", "Target clock period: " ++ period ++ " ns at " ++ frequency ++ " MHz",
    some ["create_clock -period " ++ period ++ " [get_ports clk]"]⟩

/-- **The step on the clock period**, if the frequency can be written. -/
def clockStep (f : Frequency) : Except WritingError TimingStep :=
  f.text.map (periodStep f.periodText)

/-- The step on the clock period for a double, which can always be written. -/
def doubleStep (x : Double) : TimingStep :=
  periodStep (Frequency.float x).periodText x.text

theorem clockStep_float (x : Double) : clockStep (.float x) = .ok (doubleStep x) := rfl

/-! ## Advice -/

/-- The steps for a violation and a frequency as it is given. -/
def timingSteps (frequency : Option Frequency) (violation : Violation) :
    Except WritingError (List TimingStep) :=
  match frequency with
  | none => .ok (violationSteps violation)
  | some f => (clockStep f).map fun step => violationSteps violation ++ [step]

/-- **Advice on a timing problem** with the frequency as a double. -/
def timingGuidance (issue : String) (clock : Option Double) (violation : Violation) :
    TimingGuidance :=
  ⟨issue, violation, clock, violationSteps violation ++ (clock.map doubleStep).toList, generalTips⟩

/-- Advice on a timing problem for an issue and a frequency as they are given, with the steps for
them. The issue has to be a text. The frequency is kept as a double, so an integer beyond the range
of doubles is turned down. -/
def timingGuidanceFor (issue : Value) (frequency : Option Frequency) (violation : Violation)
    (steps : List TimingStep) : Except Rejection TimingGuidance :=
  let given := Value.ofOption Frequency.toValue frequency
  named "TimingGuidance"
    ((Checked.ap (.ok fun issue clock => ⟨issue, violation, clock, steps, generalTips⟩)
      ((text issue).within (.field "issue"))).ap
      ((nullable number given).within (.field "clockFrequency")))

/-! ## Data values -/

/-- A step as a data value. -/
def TimingStep.toValue (s : TimingStep) : Value :=
  .obj [("step", .str s.step), ("description", .str s.description),
    ("commands", .ofOption .texts s.commands)]

/-- The fields of a step. -/
def TimingStep.readFields (fields : Fields) : Checked TimingStep :=
  ((Checked.ap (.ok TimingStep.mk) (required "step" text fields)).ap
    (required "description" text fields)).ap
    (optional "commands" (nullable (listOf text)) none fields)

/-- A step from a data value. -/
def TimingStep.read : Reader TimingStep :=
  record "TimingStep" TimingStep.readFields

/-- Advice on a timing problem as a data value. -/
def TimingGuidance.toValue (g : TimingGuidance) : Value :=
  .obj [("issue", .str g.issue), ("violationType", .str g.violation.name),
    ("clockFrequency", .ofOption .float g.clockFrequency),
    ("guidance", .list (g.guidance.map TimingStep.toValue)),
    ("generalTips", .texts g.generalTips)]

/-- The fields of advice on a timing problem. -/
def TimingGuidance.readFields (fields : Fields) : Checked TimingGuidance :=
  ((((Checked.ap (.ok TimingGuidance.mk) (required "issue" text fields)).ap
    (optional "violationType" (listed Violation.members) .unknown fields)).ap
    (optional "clockFrequency" (nullable number) none fields)).ap
    (optional "guidance" (listOf TimingStep.read) [] fields)).ap
    (optional "generalTips" (listOf text) [] fields)

/-- Advice on a timing problem from a data value. -/
def TimingGuidance.read : Reader TimingGuidance :=
  record "TimingGuidance" TimingGuidance.readFields

end HdlReview.Advice
