import HdlReview.Decimal.Reading
import HdlReview.Keyed
import HdlReview.Validation.Fault

/-!
# Reading records from data values

A reader takes a data value to a value of a type or to its faults. Reading is lenient about the
form of numbers: truth values, integral doubles and texts are taken for integers, and integers and
texts for doubles. The faults of all fields of a record are collected in the order of its fields.

## Main definitions

* `Checked α`: a value of `α`, or faults
* `Checked.ap`: both the faults of a function and of its argument
* `Reader α`: from data values to checked values
* `text`, `integer`, `number`, `listOf`, `nullable`, `member`, `listed`: readers of parts
* `required`, `optional`, `record`: fields and records
-/

namespace HdlReview.Validation

open HdlReview.Json HdlReview.Decimal

variable {α β : Type}

/-- A value, or the faults of the data it was to be read from. -/
abbrev Checked (α : Type) := Except (List Fault) α

/-- From data values to checked values. -/
abbrev Reader (α : Type) := Value → Checked α

/-- A single fault of a whole value. -/
def reject (defect : Defect) (v : Value) : Checked α :=
  .error [⟨defect, [], v⟩]

namespace Checked

/-- A checked function at a checked argument, with the faults of both. -/
def ap : Checked (α → β) → Checked α → Checked β
  | .ok f, .ok a => .ok (f a)
  | .ok _, .error e => .error e
  | .error e, .ok _ => .error e
  | .error e, .error e' => .error (e ++ e')

/-- The same with the faults seen from one step further out. -/
def within (segment : Segment) : Checked α → Checked α
  | .ok a => .ok a
  | .error e => .error (e.map (Fault.within segment))

@[simp] theorem ap_ok (f : α → β) (a : α) : ap (.ok f) (.ok a) = .ok (f a) := rfl

/-- A value comes out exactly when both the function and its argument are there. -/
theorem ap_eq_ok_iff {f : Checked (α → β)} {a : Checked α} {b : β} :
    ap f a = .ok b ↔ ∃ g x, f = .ok g ∧ a = .ok x ∧ g x = b := by
  cases f <;> cases a <;> simp [ap]

@[simp] theorem within_ok (segment : Segment) (a : α) : within segment (.ok a) = .ok a := rfl

theorem within_eq_ok_iff {segment : Segment} {c : Checked α} {a : α} :
    within segment c = .ok a ↔ c = .ok a := by
  cases c <;> simp [within]

end Checked

/-! ## Parts -/

/-- A text. -/
def text : Reader String
  | .str s => .ok s
  | v => reject .notText v

/-- A text with at least one character. -/
def nonEmptyText (v : Value) : Checked String :=
  match text v with
  | .ok s => if s = "" then reject .emptyText v else .ok s
  | .error e => .error e

/-- Doubles between these bounds are taken for integers. -/
def integerBound : Int := 0x8000000000000000

/-- An integer, also from a truth value, an integral double or a text. -/
def integer : Reader Int
  | .int n => .ok n
  | .bool b => .ok (if b then 1 else 0)
  | .float x =>
    if x.isFinite then
      match x.toInt? with
      | some n =>
        if -integerBound < n ∧ n < integerBound then .ok n
        else reject .oversizedInteger (.float x)
      | none => reject .fraction (.float x)
    else reject .notFinite (.float x)
  | .str s =>
    match readInt s.toList with
    | .ok n => .ok n
    | .error .malformed => reject .unreadableInteger (.str s)
    | .error .tooLong => reject .oversizedInteger (.str s)
  | v => reject .notInteger v

/-- An integer that is at least a natural number. -/
def atLeast (bound : Nat) (v : Value) : Checked Nat :=
  match integer v with
  | .ok n => if (bound : Int) ≤ n then .ok n.toNat else reject (.below bound) v
  | .error e => .error e

/-- A double, also from an integer in its range, a truth value or a text. -/
def number : Reader Double
  | .float x => .ok x
  | .int n => if (Double.ofInt n).isFinite then .ok (.ofInt n) else reject .notNumber (.int n)
  | .bool b => .ok (.ofInt (if b then 1 else 0))
  | .str s =>
    match readDouble? s.toList with
    | some x => .ok x
    | none => reject .unreadableNumber (.str s)
  | v => reject .notNumber v

/-- The words for the truth values. -/
def flagWords : List (String × Bool) :=
  [("1", true), ("0", false), ("true", true), ("false", false), ("yes", true), ("no", false),
    ("on", true), ("off", false), ("y", true), ("n", false), ("t", true), ("f", false)]

/-- A truth value from a word in any case. -/
def flag : Reader Bool
  | .bool b => .ok b
  | .str s =>
    match Keyed.get? (String.ofList (s.toList.map Char.toLower)) flagWords with
    | some b => .ok b
    | none => reject .unreadableFlag (.str s)
  | v => reject .unreadableFlag v

/-- An object with any fields. -/
def object : Reader Fields
  | .obj fields => .ok fields
  | v => reject .notObject v

/-- Null, or what a reader accepts. -/
def nullable (read : Reader α) : Reader (Option α)
  | .null => .ok none
  | v =>
    match read v with
    | .ok a => .ok (some a)
    | .error e => .error e

/-- The items of a list from a position on, with the faults of all of them. -/
def itemsFrom (read : Reader α) : Nat → List Value → Checked (List α)
  | _, [] => .ok []
  | index, v :: items =>
    (Checked.ap (.ok List.cons) ((read v).within (.item index))).ap
      (itemsFrom read (index + 1) items)

/-- A list of what a reader accepts. -/
def listOf (read : Reader α) : Reader (List α)
  | .list items => itemsFrom read 0 items
  | v => reject .notList v

/-- One of the named members of an enumeration. -/
def member (members : List (String × α)) (v : Value) : Checked α :=
  match v with
  | .str s =>
    match Keyed.get? s members with
    | some a => .ok a
    | none => reject (.notMember (members.map (·.1))) v
  | _ => reject (.notMember (members.map (·.1))) v

/-- One of the listed texts. -/
def listed (members : List (String × α)) (v : Value) : Checked α :=
  match v with
  | .str s =>
    match Keyed.get? s members with
    | some a => .ok a
    | none => reject (.notListed (members.map (·.1))) v
  | _ => reject (.notListed (members.map (·.1))) v

/-! ## Records -/

/-- A field that must be there. -/
def required (name : String) (read : Reader α) (fields : Fields) : Checked α :=
  match Keyed.get? name fields with
  | some v => (read v).within (.field name)
  | none => .error [⟨.missing, [.field name], .obj fields⟩]

/-- A field with a default. -/
def optional (name : String) (read : Reader α) (default : α) (fields : Fields) : Checked α :=
  match Keyed.get? name fields with
  | some v => (read v).within (.field name)
  | none => .ok default

/-- A record of a given name. -/
def record (name : String) (read : Fields → Checked α) : Reader α
  | .obj fields => read fields
  | v => reject (.notRecord name) v

/-- A checked record with the name it was read under. -/
def named (name : String) : Checked α → Except Rejection α
  | .ok a => .ok a
  | .error faults => .error ⟨name, faults⟩

end HdlReview.Validation
