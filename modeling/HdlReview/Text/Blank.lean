/-!
# Blank characters

Three classes of blanks. Patterns and trimming of names use the wide class, which also holds the
four information separators `0x1C` to `0x1F`; numbers written as text are trimmed of the narrow
class, which does not; content types are trimmed of those of the wide class that are one octet long.

## Main definitions

* `isBlank c`: the wide class
* `isSpace c`: the narrow class
* `isShortBlank c`: the blanks of one octet
* `trimBlanks`, `trimSpaces`, `trimShortBlanks`: a text without the blanks at its two ends
-/

namespace HdlReview.Text

/-- White space of the Unicode standard. -/
def isSpace (c : Char) : Bool :=
  let n := c.toNat
  (0x09 ≤ n && n ≤ 0x0D) || n == 0x20 || n == 0x85 || n == 0xA0 || n == 0x1680 ||
    (0x2000 ≤ n && n ≤ 0x200A) || n == 0x2028 || n == 0x2029 || n == 0x202F || n == 0x205F ||
    n == 0x3000

/-- White space and the information separators. -/
def isBlank (c : Char) : Bool :=
  isSpace c || (0x1C ≤ c.toNat && c.toNat ≤ 0x1F)

/-- Blanks of one octet. -/
def isShortBlank (c : Char) : Bool :=
  isBlank c && c.toNat < 0x80

/-- A text without the characters of a class at its two ends. -/
def trim (p : Char → Bool) (s : List Char) : List Char :=
  (((s.dropWhile p).reverse).dropWhile p).reverse

/-- A text without blanks at its two ends. -/
def trimBlanks (s : List Char) : List Char :=
  trim isBlank s

/-- A text without white space at its two ends. -/
def trimSpaces (s : List Char) : List Char :=
  trim isSpace s

/-- A text without blanks of one octet at its two ends. -/
def trimShortBlanks (s : List Char) : List Char :=
  trim isShortBlank s

end HdlReview.Text
