import HdlReview.Decimal.Notation
import HdlReview.Text.Blank

/-!
# Numbers written as text

Integers and doubles may be given as text. A double may have a sign, a fraction, an exponent, or be
one of the words for infinity and not-a-number in any case; it may have white space around it or
single underscores inside, but not both.

The text of an integer is cleaned first: of white space and a sign, of zeros at the front together
with the underscores among them, of a point and zeros at the end, and of single underscores. A
minus may also come after zeros. What is left has to be a number without superfluous zeros. The
number of digits is limited.

## Main definitions

* `natOf ds`: the number of a digit string
* `readDecimal? s`: digits and exponent of an unsigned decimal
* `readDouble? s`: the double of a text
* `cleanInteger? s`: the text of an integer, cleaned
* `readInt s`: the integer of a text
-/

namespace HdlReview.Decimal

open HdlReview.Text

/-- The number of a digit string. -/
def natOf (ds : List Char) : Nat :=
  ds.foldl (fun n d => 10 * n + (d.toNat - '0'.toNat)) 0

/-- A sign at the front of a text: whether it is a minus, and the text after it. -/
def takeSign : List Char → Bool × List Char
  | '-' :: s => (true, s)
  | '+' :: s => (false, s)
  | s => (false, s)

/-- Underscores are taken out where each stands alone between two other characters. -/
def dropUnderscores? (s : List Char) : Option (List Char) :=
  let groups := s.splitOn '_'
  if groups.length = 1 then some s
  else if groups.any (· == []) then none
  else some groups.flatten

/-- The exponent part of a decimal: nothing, or a mark, a sign and digits. -/
def readExponent? : List Char → Option Int
  | [] => some 0
  | c :: s =>
    if c == 'e' || c == 'E' then
      let (negative, ds) := takeSign s
      if ds ≠ [] ∧ ds.all Char.isDigit then
        some (if negative then -(natOf ds : Int) else natOf ds)
      else none
    else none

/-- An unsigned decimal as its digits and the exponent of the last one. -/
def readDecimal? (s : List Char) : Option (Nat × Int) :=
  let whole := s.takeWhile Char.isDigit
  let rest := s.dropWhile Char.isDigit
  let (fraction, tail) := match rest with
    | '.' :: t => (t.takeWhile Char.isDigit, t.dropWhile Char.isDigit)
    | t => ([], t)
  if whole ++ fraction = [] then none
  else (readExponent? tail).map fun e => (natOf (whole ++ fraction), e - fraction.length)

/-- A double without blanks and underscores. -/
def readPlainDouble? (s : List Char) : Option Double :=
  let (negative, t) := takeSign s
  let word := t.map Char.toLower
  if word = "inf".toList || word = "infinity".toList then some (.inf negative)
  else if word = "nan".toList then some .nan
  else (readDecimal? t).map fun (digits, e) => ofDecimal negative digits e

/-- **The double of a text**, if it is the text of one. -/
def readDouble? (s : List Char) : Option Double :=
  if s.contains '_' then (dropUnderscores? s).bind readPlainDouble?
  else readPlainDouble? (trimSpaces s)

/-! ## Integers -/

/-- Why a text is not taken for an integer. -/
inductive IntegerComplaint where
  /-- It is not the text of one. -/
  | malformed
  /-- It starts with too many digits. -/
  | tooLong
deriving DecidableEq, Repr

/-- The text after zeros and underscores, `last` being the last of them. A zero before a point and
the last one of all stay. -/
def afterZeros? (last : Char) : List Char → Option (List Char)
  | [] => some [last]
  | c :: s =>
    if c == '0' || c == '_' then afterZeros? c s
    else if c.isDigit || c == '-' then some (c :: s)
    else if c == '.' then some (last :: c :: s)
    else none

/-- The text without zeros at its front, if it starts like an integer. -/
def dropZeros? : List Char → Option (List Char)
  | [] => none
  | c :: s =>
    if c == '0' then afterZeros? c s
    else if c.isDigit || c == '-' then some (c :: s)
    else none

/-- The text without a point and zeros at its end. -/
def dropZeroFraction (s : List Char) : List Char :=
  match s.dropWhile (· != '.') with
  | _ :: zeros => if zeros != [] && zeros.all (· == '0') then s.takeWhile (· != '.') else s
  | [] => s

/-- The text of an integer without sign, cleaned. -/
def cleanUnsigned? (s : List Char) : Option (List Char) :=
  (dropZeros? s).map fun t =>
    let t := dropZeroFraction t
    (dropUnderscores? t).getD t

/-- The text of an integer, cleaned. -/
def cleanInteger? (s : List Char) : Option (List Char) :=
  match trimSpaces s with
  | '+' :: '-' :: _ => none
  | '+' :: t => cleanUnsigned? t
  | '-' :: t => (cleanUnsigned? t).map ('-' :: ·)
  | t => cleanUnsigned? t

/-- The text without a minus at its front, and whether there was one. -/
def takeMinus : List Char → Bool × List Char
  | '-' :: s => (true, s)
  | s => (false, s)

/-- The integer of a clean text: digits after a minus or none, the first of several not a zero. -/
def readCleanInteger? (s : List Char) : Option Int :=
  let (negative, ds) := takeMinus s
  if ds = [] ∨ ¬ ds.all Char.isDigit ∨ (ds.head? = some '0' ∧ ds.length ≠ 1) ∨
      digitLimit < ds.length then none
  else some (if negative then -(natOf ds : Int) else natOf ds)

/-- Whether a text, as it is given, starts with a number of too many digits. -/
def startsTooLong (s : List Char) : Bool :=
  let ds := (takeMinus s).2.takeWhile Char.isDigit
  ds.head? != some '0' && digitLimit < ds.length

/-- **The integer of a text**, or why it is not taken for one. Too many digits that show only after
cleaning make a text malformed. -/
def readInt (s : List Char) : Except IntegerComplaint Int :=
  if startsTooLong s then .error .tooLong
  else
    match (cleanInteger? s).bind readCleanInteger? with
    | some n => .ok n
    | none => .error .malformed

end HdlReview.Decimal
