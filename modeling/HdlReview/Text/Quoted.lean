import HdlReview.Text.Hex
import HdlReview.Text.Printable

/-!
# Quoted texts

Messages quote the texts they complain about. The delimiter is the apostrophe, unless the text
holds an apostrophe and no quotation mark. Inside, the backslash, the delimiter, line feed,
carriage return and tab have short escapes; other characters that are not printable are spelled
by their number with two, four or eight hexadecimal digits.

## Main definitions

* `delimiter s`: the mark around the quoted text
* `quote s`: the quoted text
-/

namespace HdlReview.Text

/-- The mark that a text is quoted with. -/
def delimiter (s : List Char) : Char :=
  if s.contains '\'' && !s.contains '"' then '"' else '\''

/-- The spelling of one character between the marks `mark`. -/
def quoteChar (mark c : Char) : List Char :=
  if c == mark || c == '\\' then ['\\', c]
  else if c == '\n' then ['\\', 'n']
  else if c == '\r' then ['\\', 'r']
  else if c == '\t' then ['\\', 't']
  else if isPrintable c then [c]
  else if c.toNat < 0x100 then '\\' :: 'x' :: hexText 2 c.toNat
  else if c.toNat < 0x10000 then '\\' :: 'u' :: hexText 4 c.toNat
  else '\\' :: 'U' :: hexText 8 c.toNat

/-- A text between its marks. -/
def quoteChars (s : List Char) : List Char :=
  let mark := delimiter s
  mark :: s.flatMap (quoteChar mark) ++ [mark]

/-- A text between its marks. -/
def quote (s : String) : String :=
  String.ofList (quoteChars s.toList)

end HdlReview.Text
