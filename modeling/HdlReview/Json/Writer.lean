import HdlReview.Decimal.Notation
import HdlReview.Json.Value
import HdlReview.Text.Hex

/-!
# Writing data texts

A written value is a single line of printable ASCII characters. A comma and a colon are followed
by a space; quotation mark, backslash and the common controls have short escapes, and every other
character outside the printable ASCII range is written by its code units. Doubles have their
shortest text, and the three that are not finite have words of their own.

## Main definitions

* `escapeChar c`: the spelling of a character inside a text
* `writeText s`: a text between quotation marks
* `write v`: the text of a value
-/

namespace HdlReview.Json

open HdlReview.Decimal HdlReview.Text

/-- The escape for a code unit. -/
def unitEscape (n : Nat) : List Char :=
  '\\' :: 'u' :: hexText 4 n

/-- The spelling of a character inside a text. -/
def escapeChar (c : Char) : List Char :=
  if c == '"' then ['\\', '"']
  else if c == '\\' then ['\\', '\\']
  else if c == '\n' then ['\\', 'n']
  else if c == '\r' then ['\\', 'r']
  else if c == '\t' then ['\\', 't']
  else if c == '\x08' then ['\\', 'b']
  else if c == '\x0c' then ['\\', 'f']
  else
    let n := c.toNat
    if 0x20 ≤ n && n ≤ 0x7E then [c]
    else if n < 0x10000 then unitEscape n
    else unitEscape (0xD800 + (n - 0x10000) / 0x400) ++ unitEscape (0xDC00 + (n - 0x10000) % 0x400)

/-- A text between quotation marks. -/
def writeText (s : String) : List Char :=
  '"' :: s.toList.flatMap escapeChar ++ ['"']

/-- The text of a double. -/
def writeDouble : Double → List Char
  | .nan => "NaN".toList
  | .inf negative => signText negative ++ "Infinity".toList
  | x => x.text.toList

mutual

/-- **The text of a value**. -/
def write : Value → List Char
  | .null => "null".toList
  | .bool b => if b then "true".toList else "false".toList
  | .int n => (intText n).toList
  | .float x => writeDouble x
  | .str s => writeText s
  | .list items => '[' :: writeItems items ++ [']']
  | .obj fields => '{' :: writeFields fields ++ ['}']

/-- The items of a list, with commas between them. -/
def writeItems : List Value → List Char
  | [] => []
  | [v] => write v
  | v :: w :: items => write v ++ ',' :: ' ' :: writeItems (w :: items)

/-- The fields of an object, with commas between them. -/
def writeFields : Fields → List Char
  | [] => []
  | [(n, v)] => writeText n ++ ':' :: ' ' :: write v
  | (n, v) :: f :: fields =>
    writeText n ++ ':' :: ' ' :: write v ++ ',' :: ' ' :: writeFields (f :: fields)

end

end HdlReview.Json
