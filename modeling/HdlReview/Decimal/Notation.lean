import HdlReview.Decimal.Double

/-!
# Decimal notation of doubles

Two notations. `Double.text` writes the fewest digits that read back as the same double, of those
the nearest to it, and of two equally near the one with the even last digit; numbers from `10⁻⁴`
up to `10¹⁶` stand in positional notation with at least one digit after the point, the others with
an exponent of a sign and at least two digits. `Double.fixed` writes a given number of places,
rounding the exact binary value with ties to even. Both keep the sign of a zero.

## Main definitions

* `natText`, `intText`: the digits of integers
* `writeInt n`: the digits of an integer, or the error if there are too many
* `ofDecimal negative digits exponent`: the double nearest to `± digits · 10 ^ exponent`
* `shortest`: the fewest digits that read back
* `Double.text`, `Double.fixed places`: the two notations
* `Double.roundPlaces places`: the double nearest to the value in fixed notation
-/

namespace HdlReview.Decimal

/-- The decimal digits of a number, the highest first. -/
def digitsOf (n : Nat) : List Char :=
  Nat.toDigits 10 n

/-- The decimal text of a natural number. -/
def natText (n : Nat) : String :=
  String.ofList (digitsOf n)

/-- The number of decimal digits of a number, none for zero. -/
def digitCount (n : Nat) : Nat :=
  if n = 0 then 0 else (digitsOf n).length

/-- Decimal exponents beyond this bound leave the range of the format for every digit string. -/
def exponentBound : Int := 400

/-- **Reading a decimal**: the double nearest to `± digits · 10 ^ exponent`. -/
def ofDecimal (negative : Bool) (digits : Nat) (exponent : Int) : Double :=
  if digits = 0 then .zero negative
  else
    let top := (digitCount digits : Int) + exponent
    if exponentBound < top then .inf negative
    else if top < -exponentBound then .zero negative
    else if 0 ≤ exponent then .ofRatio negative (digits * Nat.pow 10 exponent.toNat) 1
    else .ofRatio negative digits (Nat.pow 10 (-exponent).toNat)

/-- The `k` with `10 ^ k ≤ num / den < 10 ^ (k + 1)`, for positive arguments. -/
def floorLog10 (num den : Nat) : Int :=
  if den ≤ num then (digitCount (num / den) : Int) - 1
  else -(digitCount ((den + num - 1) / num - 1) : Int)

/-- The two parts of `num / den` on the grid of multiples of `10 ^ j`: numerator and denominator of
`num / (den · 10 ^ j)`. -/
def onGrid (num den : Nat) (j : Int) : Nat × Nat :=
  if 0 ≤ j then (num, den * Nat.pow 10 j.toNat) else (num * Nat.pow 10 (-j).toNat, den)

/-- The multiple of `10 ^ j` that stands for the positive double `x = num / den`: of the two
neighbours of `x` on the grid that read back as `x` the nearer one, the even one in a tie. -/
def gridDigits? (x : Double) (num den : Nat) (j : Int) : Option Nat :=
  let (a, b) := onGrid num den j
  let low := a / b
  let reads := fun d => ofDecimal false d j = x
  match decide (reads low), decide (reads (low + 1)) with
  | true, true => some (roundDiv a b)
  | true, false => some low
  | false, true => some (low + 1)
  | false, false => none

/-- **The fewest digits that read back** as the positive double `m · 2 ^ e`, with the decimal
exponent of their last one. Seventeen digits suffice for every double. -/
def shortest (m : Nat) (e : Int) : Nat × Int :=
  let num := Double.numerator m e
  let den := Double.denominator e
  let k := floorLog10 num den
  let found := (List.range 17).findSome? fun (i : Nat) =>
    (gridDigits? (.finite false m e) num den (k - i)).map fun d => (d, k - i)
  found.getD (0, 0)

/-- A digit string without the zeros at its end. -/
def dropEndZeros (ds : List Char) : List Char :=
  (ds.reverse.dropWhile (· == '0')).reverse

/-- `n` zeros. -/
def zeros (n : Nat) : List Char :=
  List.replicate n '0'

/-- Digits with the point after position `p + 1`, for an exponent `p` that is not negative. -/
def positionalLarge (ds : List Char) (p : Nat) : List Char :=
  let padded := ds ++ zeros (p + 1 - ds.length)
  let fraction := padded.drop (p + 1)
  padded.take (p + 1) ++ '.' :: (if fraction = [] then ['0'] else fraction)

/-- Digits after the point, the first of them at place `p`. -/
def positionalSmall (ds : List Char) (p : Nat) : List Char :=
  '0' :: '.' :: zeros (p - 1) ++ ds

/-- The exponent mark, its sign and at least two digits. -/
def exponentText (p : Int) : List Char :=
  let ds := digitsOf p.natAbs
  'e' :: (if p < 0 then '-' else '+') :: zeros (2 - ds.length) ++ ds

/-- Digits with the point after the first one and an exponent. -/
def scientific (ds : List Char) (p : Int) : List Char :=
  match ds with
  | [] => []
  | [d] => d :: exponentText p
  | d :: ds => d :: '.' :: ds ++ exponentText p

/-- The text of the positive number with the digits `ds`, the first at the decimal exponent `p`. -/
def layOut (ds : List Char) (p : Int) : List Char :=
  if 16 ≤ p || p < -4 then scientific ds p
  else if 0 ≤ p then positionalLarge ds p.toNat
  else positionalSmall ds (-p).toNat

/-- A minus sign for negative numbers. -/
def signText (negative : Bool) : List Char :=
  if negative then ['-'] else []

/-- The decimal text of an integer. -/
def intText (n : Int) : String :=
  String.ofList (signText (n < 0) ++ digitsOf n.natAbs)

namespace Double

/-- The text of the absolute value of a finite double. -/
def magnitudeText (m : Nat) (e : Int) : List Char :=
  if m = 0 then ['0', '.', '0']
  else
    let (digits, j) := shortest m e
    let ds := digitsOf digits
    layOut (dropEndZeros ds) (ds.length - 1 + j)

/-- **The shortest text** of a double. -/
def text : Double → String
  | nan => "nan"
  | inf negative => String.ofList (signText negative ++ "inf".toList)
  | finite negative m e => String.ofList (signText negative ++ magnitudeText m e)

/-- The multiple of `10 ^ -places` nearest to `m · 2 ^ e`. -/
def scaledPlaces (places m : Nat) (e : Int) : Nat :=
  roundDiv (numerator m e * Nat.pow 10 places) (denominator e)

/-- `n · 10 ^ -places` with all its places. -/
def placesText (places n : Nat) : List Char :=
  let fraction := digitsOf (n % Nat.pow 10 places)
  digitsOf (n / Nat.pow 10 places) ++ '.' :: zeros (places - fraction.length) ++ fraction

/-- **Fixed notation** with a number of places that is not zero. -/
def fixed (places : Nat) : Double → String
  | nan => "nan"
  | inf negative => String.ofList (signText negative ++ "inf".toList)
  | finite negative m e =>
    String.ofList (signText negative ++ placesText places (scaledPlaces places m e))

/-- The double nearest to the value in fixed notation. -/
def roundPlaces (places : Nat) : Double → Double
  | finite negative m e => .ofRatio negative (scaledPlaces places m e) (Nat.pow 10 places)
  | x => x

end Double

/-! ## Long integers -/

/-- Integers are read and written with at most this many digits. -/
def digitLimit : Nat := 4300

/-- The least number with more digits than are written. -/
@[irreducible] def longBound : Nat :=
  Nat.pow 10 digitLimit

/-- Why a number cannot be written. -/
inductive WritingError where
  /-- An integer has too many digits. -/
  | longInteger
deriving DecidableEq, Repr

/-- The wording of an error. -/
def WritingError.message : WritingError → String
  | longInteger =>
    "Exceeds the limit (" ++ natText digitLimit ++ " digits) for integer string conversion; " ++
      "use sys.set_int_max_str_digits() to increase the limit"

/-- **The text of an integer**, if it does not have too many digits. -/
def writeInt (n : Int) : Except WritingError String :=
  if n.natAbs < longBound then .ok (intText n) else .error .longInteger

theorem writeInt_of_lt {n : Int} (h : n.natAbs < longBound) : writeInt n = .ok (intText n) :=
  if_pos h

theorem writeInt_of_le {n : Int} (h : longBound ≤ n.natAbs) : writeInt n = .error .longInteger :=
  if_neg (Nat.not_lt_of_le h)

end HdlReview.Decimal
