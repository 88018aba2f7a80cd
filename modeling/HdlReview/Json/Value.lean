import HdlReview.Decimal.Double

/-!
# Data values

Requests, tool arguments, settings and answers are data values: null, truth values, integers of
any size, doubles, texts, lists and objects. An object is the list of its fields in order of first
appearance, one field to a name. What a text is can be chosen; it is a `String` if nothing is said.

## Main definitions

* `Value`: a data value
* `Fields`: the fields of an object
* `Value.mapTexts f`: the value with `f` applied to its texts and names
* `Value.ofOption`, `Value.texts`: null for an absent value, lists of texts
* `Value.allFinite`: no number inside is infinite or not a number
* `Value.onlyFinite`: null in place of such numbers
* `Value.levels`: how many values lie inside each other
* `Value.filterNames keep`: only the fields whose names are to be kept
-/

namespace HdlReview.Json

open HdlReview.Decimal

/-- A data value. -/
inductive Value (τ : Type := String) where
  /-- The absent value. -/
  | null
  /-- A truth value. -/
  | bool (b : Bool)
  /-- An integer. -/
  | int (n : Int)
  /-- A double. -/
  | float (x : Double)
  /-- A text. -/
  | str (s : τ)
  /-- A list. -/
  | list (items : List (Value τ))
  /-- An object. -/
  | obj (fields : List (τ × Value τ))
deriving Repr, Inhabited

/-- The fields of an object. -/
abbrev Fields (τ : Type := String) := List (τ × Value τ)

variable {τ υ : Type}

/-- Null for an absent value. -/
def Value.ofOption {α : Type} (f : α → Value) : Option α → Value
  | none => .null
  | some a => f a

/-- A list of texts. -/
def Value.texts (ss : List String) : Value :=
  .list (ss.map .str)

mutual

/-- The value with a function applied to its texts and names. -/
def Value.mapTexts (f : τ → υ) : Value τ → Value υ
  | .null => .null
  | .bool b => .bool b
  | .int n => .int n
  | .float x => .float x
  | .str s => .str (f s)
  | .list items => .list (listMapTexts f items)
  | .obj fields => .obj (fieldsMapTexts f fields)

/-- The items with a function applied to their texts and names. -/
def listMapTexts (f : τ → υ) : List (Value τ) → List (Value υ)
  | [] => []
  | v :: items => v.mapTexts f :: listMapTexts f items

/-- The fields with a function applied to their texts and names. -/
def fieldsMapTexts (f : τ → υ) : Fields τ → Fields υ
  | [] => []
  | (n, v) :: fields => (f n, v.mapTexts f) :: fieldsMapTexts f fields

end

mutual

/-- Whether every number inside is finite. -/
def Value.allFinite : Value → Bool
  | .float x => x.isFinite
  | .list items => listFinite items
  | .obj fields => fieldsFinite fields
  | _ => true

/-- Whether every number inside the items is finite. -/
def listFinite : List Value → Bool
  | [] => true
  | v :: items => v.allFinite && listFinite items

/-- Whether every number inside the fields is finite. -/
def fieldsFinite : Fields → Bool
  | [] => true
  | (_, v) :: fields => v.allFinite && fieldsFinite fields

end

mutual

/-- The value with null in place of numbers that are not finite. -/
def Value.onlyFinite : Value → Value
  | .float x => if x.isFinite then .float x else .null
  | .list items => .list (listOnlyFinite items)
  | .obj fields => .obj (fieldsOnlyFinite fields)
  | v => v

/-- The items with null in place of numbers that are not finite. -/
def listOnlyFinite : List Value → List Value
  | [] => []
  | v :: items => v.onlyFinite :: listOnlyFinite items

/-- The fields with null in place of numbers that are not finite. -/
def fieldsOnlyFinite : Fields → Fields
  | [] => []
  | (n, v) :: fields => (n, v.onlyFinite) :: fieldsOnlyFinite fields

end

mutual

/-- How many values lie inside each other, this one included. -/
def Value.levels : Value → Nat
  | .list items => listLevels items + 1
  | .obj fields => fieldsLevels fields + 1
  | _ => 1

/-- The greatest number of levels of the items. -/
def listLevels : List Value → Nat
  | [] => 0
  | v :: items => max v.levels (listLevels items)

/-- The greatest number of levels of the fields. -/
def fieldsLevels : Fields → Nat
  | [] => 0
  | (_, v) :: fields => max v.levels (fieldsLevels fields)

end

mutual

/-- The value with only those fields, at any depth, whose names are to be kept. -/
def Value.filterNames (keep : τ → Bool) : Value τ → Value τ
  | .list items => .list (listFilterNames keep items)
  | .obj fields => .obj (fieldsFilterNames keep fields)
  | v => v

/-- The items with only those fields whose names are to be kept. -/
def listFilterNames (keep : τ → Bool) : List (Value τ) → List (Value τ)
  | [] => []
  | v :: items => v.filterNames keep :: listFilterNames keep items

/-- The fields whose names are to be kept, with only such fields inside. -/
def fieldsFilterNames (keep : τ → Bool) : Fields τ → Fields τ
  | [] => []
  | (n, v) :: fields =>
    if keep n then (n, v.filterNames keep) :: fieldsFilterNames keep fields
    else fieldsFilterNames keep fields

end

end HdlReview.Json
