import HdlReview.Json.Value
import HdlReview.Text.Encoding

/-!
# Data values as they are read

The texts and names of a value that was read may hold lone halves of surrogate pairs. What is done
with the value goes by its plain texts. What is sent of it again must have a place in a response:
its numbers are finite, its texts and names have no lone halves, and not too many lists and objects
lie inside each other.

## Main definitions

* `Value.plain v`: the value with plain texts
* `Value.raw v`: a value of plain texts as one that was read
* `Value.sendable limit v`: whether a value can be sent again, with at most `limit` lists and
  objects inside each other
-/

namespace HdlReview.Json

open HdlReview.Text

/-- The value with plain texts and names. -/
def Value.plain (v : Value RawText) : Value :=
  v.mapTexts RawText.plain

/-- A value of plain texts as one that was read. -/
def Value.raw (v : Value) : Value RawText :=
  v.mapTexts RawText.ofString

mutual

/-- **Whether a value can be sent again**, with at most `limit` lists and objects inside each
other. -/
def Value.sendable (limit : Nat) : Value RawText → Bool
  | .float x => x.isFinite
  | .str s => s.isPlain
  | .list items => limit != 0 && listSendable (limit - 1) items
  | .obj fields => limit != 0 && fieldsSendable (limit - 1) fields
  | _ => true

/-- Whether all items can be sent again. -/
def listSendable (limit : Nat) : List (Value RawText) → Bool
  | [] => true
  | v :: items => v.sendable limit && listSendable limit items

/-- Whether all fields can be sent again. -/
def fieldsSendable (limit : Nat) : Fields RawText → Bool
  | [] => true
  | (n, v) :: fields => n.isPlain && v.sendable limit && fieldsSendable limit fields

end

end HdlReview.Json
