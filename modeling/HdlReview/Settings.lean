import HdlReview.Audit.Logger
import HdlReview.Json.Reader

/-!
# Settings

The settings of the service come from environment variables. The names of variables may be written
in any case, and of several spellings of one name the last counts. The list of allowed origins is
given as a data text; the other settings are read from their texts.

## Main definitions

* `Settings`, `Settings.toValue`
* `SettingsError`: why the settings cannot be had
* `Settings.ofEnvironment environment`: the settings
-/

namespace HdlReview

open HdlReview.Json HdlReview.Validation

/-- The settings of the service. -/
structure Settings where
  maxCodeLength : Int
  logLevel : String
  port : Int
  host : String
  corsOrigins : List String
  auditEnabled : Bool
  auditLogPath : String
deriving DecidableEq, Repr

/-- Why the settings cannot be had. -/
inductive SettingsError where
  /-- The list of origins is no data text. -/
  | unreadableOrigins
  /-- The data text of the origins is nested too deeply. -/
  | tooDeep (c : Complaint)
  /-- Some settings are turned down. -/
  | rejected (r : Rejection)
deriving Repr

/-- The wording of an error. A rejection is worded by its faults instead. -/
def SettingsError.message : SettingsError → String
  | unreadableOrigins =>
    "error parsing value for field \"cors_origins\" from source \"EnvSettingsSource\""
  | tooDeep c => c.message
  | rejected _ => ""

namespace Settings

/-- The settings as a data value. -/
def toValue (s : Settings) : Value :=
  .obj [("max_code_length", .int s.maxCodeLength), ("log_level", .str s.logLevel),
    ("port", .int s.port), ("host", .str s.host), ("cors_origins", .texts s.corsOrigins),
    ("audit_enabled", .bool s.auditEnabled), ("audit_log_path", .str s.auditLogPath)]

/-- The fields of the settings, with their defaults. -/
def readFields (fields : Fields) : Checked Settings :=
  ((((((Checked.ap (.ok Settings.mk) (optional "max_code_length" integer 200000 fields)).ap
    (optional "log_level" text "INFO" fields)).ap
    (optional "port" integer 5001 fields)).ap
    (optional "host" text "0.0.0.0" fields)).ap
    (optional "cors_origins" (listOf text) ["*"] fields)).ap
    (optional "audit_enabled" flag false fields)).ap
    (optional "audit_log_path" text Audit.standardPath fields)

/-- A name in small letters. -/
def lowerName (name : String) : String :=
  String.ofList (name.toList.map Char.toLower)

/-- The variables of an environment under small names, the last of each name. -/
def lastByName (environment : List (String × String)) : List (String × String) :=
  environment.foldl (fun vs (name, s) => Keyed.insert (lowerName name) s vs) []

/-- Lists and objects in the text of the origins are at most this deep. -/
def depthLimit : Nat := 984

/-- What is wrong with the text of the origins. -/
def originsError (m : Malformed) : SettingsError :=
  match m.complaint with
  | .listTooDeep => .tooDeep m.complaint
  | .objectTooDeep => .tooDeep m.complaint
  | _ => .unreadableOrigins

/-- The value of a variable: data for the origins, where null stands for none, and a text
otherwise. -/
def variableValue (name s : String) : Except SettingsError (Option Value) :=
  if name = "cors_origins" then
    match Json.readWithin depthLimit s.toList with
    | .ok .null => .ok none
    | .ok v => .ok (some v)
    | .error m => .error (originsError m)
  else .ok (some (.str s))

/-- The fields that the variables give. -/
def variableFields : List (String × String) → Except SettingsError Fields
  | [] => .ok []
  | (name, s) :: vs => do
    let v ← variableValue name s
    let fields ← variableFields vs
    return (v.map fun v => (name, v)).toList ++ fields

/-- **The settings of an environment**. -/
def ofEnvironment (environment : List (String × String)) : Except SettingsError Settings := do
  let fields ← variableFields (lastByName environment)
  match readFields fields with
  | .ok s => return s
  | .error faults => .error (.rejected ⟨"Settings", faults⟩)

end Settings

end HdlReview
