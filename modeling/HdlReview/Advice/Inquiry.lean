import HdlReview.Advice.Crossing
import HdlReview.Advice.Timing

/-!
# Asking for advice with data values

Advice may be asked for with any data value in place of a violation type, a signal type, a frequency
or a description. What is not one of the known names, a number or a text is an error.

## Main definitions

* `InquiryError`: what is wrong with an inquiry, and its wording
* `Frequency.ofValue`: the frequency that a data value stands for
* `inquireTiming`, `inquireCrossing`: advice for data values
-/

namespace HdlReview.Advice

open HdlReview.Json HdlReview.Validation HdlReview.Text HdlReview.Decimal

/-- What is wrong with an inquiry. -/
inductive InquiryError where
  /-- There is no such type of violations. -/
  | unknownViolation (given : Value)
  /-- There is no such signal type. -/
  | unknownSignalType (given : Value)
  /-- A list or an object in place of a name. -/
  | notAName (given : Value)
  /-- A frequency that is not a number. -/
  | notANumber (given : Value)
  /-- A frequency that cannot be written. -/
  | unwritable (e : WritingError)
  /-- Advice that cannot be given in its form. -/
  | rejected (r : Rejection)

/-- The wording of an error. A rejection is worded by its faults instead. -/
def InquiryError.message : InquiryError → String
  | unknownViolation given => "Unknown violation type: " ++ spellPlain given
  | unknownSignalType given => "Unknown signal type: " ++ spellPlain given
  | notAName given => "unhashable type: " ++ quote (formWord given)
  | notANumber given =>
    "unsupported operand type(s) for /: 'int' and " ++ quote (formWord given)
  | unwritable e => e.message
  | rejected _ => ""

/-- The frequency that a data value stands for. -/
def Frequency.ofValue : Value → Except InquiryError Frequency
  | .int n => .ok (.int n)
  | .float x => .ok (.float x)
  | .bool b => .ok (.flag b)
  | v => .error (.notANumber v)

/-- The type of violations that a data value names. -/
def Violation.ofValue (v : Value) : Except InquiryError Violation :=
  match v with
  | .str s =>
    match Keyed.get? s Violation.members with
    | some violation => .ok violation
    | none => .error (.unknownViolation v)
  | _ => .error (.unknownViolation v)

/-- The signal type that a data value names, none for null. -/
def SignalType.ofValue (v : Value) : Except InquiryError (Option SignalType) :=
  match v with
  | .null => .ok none
  | .str s =>
    match Keyed.get? s SignalType.members with
    | some signalType => .ok (some signalType)
    | none => .error (.unknownSignalType v)
  | .list _ => .error (.notAName v)
  | .obj _ => .error (.notAName v)
  | _ => .error (.unknownSignalType v)

/-- **Advice on a timing problem** for data values. The type of the violation is looked at first,
and the steps are written before the advice is. -/
def inquireTiming (issue frequency violation : Value) :
    Except InquiryError TimingGuidance := do
  let v ← Violation.ofValue violation
  let f ← match frequency with
    | .null => pure none
    | given => some <$> Frequency.ofValue given
  let steps ← (timingSteps f v).mapError .unwritable
  match timingGuidanceFor issue f v steps with
  | .ok guidance => return guidance
  | .error r => .error (.rejected r)

/-- **Advice on a crossing** for data values. The signal type is looked at first. -/
def inquireCrossing (description signalType : Value) : Except InquiryError CrossingGuidance := do
  let t ← SignalType.ofValue signalType
  match named "CDCGuidance" ((text description).within (.field "description")) with
  | .ok s => return crossingGuidance s t
  | .error r => .error (.rejected r)

end HdlReview.Advice
