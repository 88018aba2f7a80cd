import HdlReview.Text.Hex
import HdlReview.Text.Utf8

/-!
# Percent escapes

In an address, a percent sign and two hexadecimal digits stand for an octet. A percent sign without
two digits stands for itself.

## Main definitions

* `unescape s`: the text with its escapes read
* `escape keep s`: the text with all characters escaped but letters, digits, `_.-~` and those to
  keep
-/

namespace HdlReview.Text

/-- The octets of a text with escapes. -/
def escapedOctets : List Char → List Nat
  | '%' :: a :: b :: rest =>
    match hexValue? a, hexValue? b with
    | some x, some y => (16 * x + y) :: escapedOctets rest
    | _, _ => octets '%' ++ escapedOctets (a :: b :: rest)
  | c :: rest => octets c ++ escapedOctets rest
  | [] => []

/-- **The text with its escapes read**. -/
def unescape (s : List Char) : List Char :=
  readOctets (escapedOctets s)

/-- The characters that are never escaped. -/
def isUnreserved (c : Char) : Bool :=
  c.isAlphanum || c == '_' || c == '.' || c == '-' || c == '~'

/-- An octet as an escape, with large letters. -/
def escapeOctet (b : Nat) : List Char :=
  '%' :: (hexText 2 b).map Char.toUpper

/-- **The text with escapes** for the characters that are neither unreserved nor to be kept. -/
def escape (keep : Char → Bool) (s : List Char) : List Char :=
  s.flatMap fun c => if isUnreserved c || keep c then [c] else (octets c).flatMap escapeOctet

end HdlReview.Text
