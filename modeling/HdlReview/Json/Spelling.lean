import HdlReview.Decimal.Notation
import HdlReview.Json.Value
import HdlReview.Text.Quoted

/-!
# Values inside messages

A message that complains about a value spells it: capitalised words for null and the truth values,
digits for numbers, brackets and braces around the parts of lists and objects. A text is quoted,
except where the message shows it plainly.

## Main definitions

* `spell v`: the spelling of a value, texts quoted
* `spellPlain v`: the same, a text itself as it is
-/

namespace HdlReview.Json

open HdlReview.Decimal HdlReview.Text

mutual

/-- The spelling of a value, with texts quoted. -/
def spell : Value → String
  | .null => "None"
  | .bool b => if b then "True" else "False"
  | .int n => intText n
  | .float x => x.text
  | .str s => quote s
  | .list items => "[" ++ spellItems items ++ "]"
  | .obj fields => "\x7b" ++ spellFields fields ++ "\x7d"

/-- The spellings of the items of a list. -/
def spellItems : List Value → String
  | [] => ""
  | [v] => spell v
  | v :: w :: items => spell v ++ ", " ++ spellItems (w :: items)

/-- The spellings of the fields of an object. -/
def spellFields : Fields → String
  | [] => ""
  | [(n, v)] => quote n ++ ": " ++ spell v
  | (n, v) :: f :: fields => quote n ++ ": " ++ spell v ++ ", " ++ spellFields (f :: fields)

end

/-- The spelling of a value, with a text shown as it is. -/
def spellPlain : Value → String
  | .str s => s
  | v => spell v

/-- The word for the form of a value in messages. -/
def formWord : Value → String
  | .null => "NoneType"
  | .bool _ => "bool"
  | .int _ => "int"
  | .float _ => "float"
  | .str _ => "str"
  | .list _ => "list"
  | .obj _ => "dict"

end HdlReview.Json
