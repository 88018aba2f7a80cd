/-!
# Double-precision numbers

A double is not a number, an infinity, or a finite number `± mantissa · 2 ^ exponent`. The finite
ones are kept in the form that the format fixes: the mantissa is below `2 ^ 53`, the exponent is
between `-1074` and `971`, and the mantissa is at least `2 ^ 52` unless the exponent is least.
Every operation takes the exact rational result and rounds it once, to the nearest double, a tie
going to the even mantissa; `ofRatio` is that rounding.

## Main definitions

* `roundDiv num den`: the nearest natural number to a quotient
* `Double.ofRatio negative num den`: the nearest double to a quotient
* `Double.ofInt`, `Double.sub`, `Double.mul`, `Double.quotient`: conversion and arithmetic
* `Double.toInt?`: the integer a double is equal to
-/

namespace HdlReview.Decimal

/-- The natural number nearest to `num / den`; a tie goes to the even neighbour. -/
def roundDiv (num den : Nat) : Nat :=
  let q := num / den
  let r := num % den
  if 2 * r < den then q
  else if den < 2 * r then q + 1
  else if q % 2 = 0 then q else q + 1

/-- A number of the double-precision format. -/
inductive Double where
  /-- The result that is not a number. -/
  | nan
  /-- An infinity. -/
  | inf (negative : Bool)
  /-- The number `mantissa · 2 ^ exponent` with a sign. -/
  | finite (negative : Bool) (mantissa : Nat) (exponent : Int)
deriving DecidableEq, Repr, Inhabited

namespace Double

/-- The exponent of the smallest numbers. -/
def leastExponent : Int := -1074

/-- The exponent of the largest numbers. -/
def greatestExponent : Int := 971

/-- Zero with a sign. -/
def zero (negative : Bool) : Double :=
  .finite negative 0 leastExponent

/-- Whether `2 ^ k ≤ num / den`. -/
def twoPowLe (num den : Nat) (k : Int) : Bool :=
  if 0 ≤ k then den * Nat.pow 2 k.toNat ≤ num else den ≤ num * Nat.pow 2 (-k).toNat

/-- The `k` with `2 ^ k ≤ num / den < 2 ^ (k + 1)`, for positive arguments. -/
def floorLog2 (num den : Nat) : Int :=
  let k : Int := (num.log2 : Int) - den.log2
  if twoPowLe num den k then k else k - 1

/-- The natural number nearest to `num / (den · 2 ^ e)`. -/
def roundAt (num den : Nat) (e : Int) : Nat :=
  if 0 ≤ e then roundDiv num (den * Nat.pow 2 e.toNat)
  else roundDiv (num * Nat.pow 2 (-e).toNat) den

/-- The double with a mantissa of at most `2 ^ 53`, infinite if the exponent is too large. -/
def pack (negative : Bool) (mantissa : Nat) (exponent : Int) : Double :=
  if mantissa = Nat.pow 2 53 then
    if greatestExponent < exponent + 1 then .inf negative
    else .finite negative (Nat.pow 2 52) (exponent + 1)
  else if greatestExponent < exponent then .inf negative
  else .finite negative mantissa exponent

/-- **The nearest double** to the quotient `num / den` with a sign; a tie goes to the even
mantissa, and what is beyond the format goes to infinity. -/
def ofRatio (negative : Bool) (num den : Nat) : Double :=
  if num = 0 then zero negative
  else
    let e := max (floorLog2 num den - 52) leastExponent
    pack negative (roundAt num den e) e

/-- The double nearest to an integer. -/
def ofInt (n : Int) : Double :=
  ofRatio (n < 0) n.natAbs 1

/-- Whether the double is a number that is not infinite. -/
def isFinite : Double → Bool
  | finite .. => true
  | _ => false

/-- Whether the double is a zero of either sign. -/
def isZero : Double → Bool
  | finite _ m _ => m == 0
  | _ => false

/-- The numerator of `m · 2 ^ e`. -/
def numerator (m : Nat) (e : Int) : Nat :=
  if 0 ≤ e then m * Nat.pow 2 e.toNat else m

/-- The denominator of `m · 2 ^ e`. -/
def denominator (e : Int) : Nat :=
  if 0 ≤ e then 1 else Nat.pow 2 (-e).toNat

/-- The integer `± m · 2 ^ k`. -/
def signed (negative : Bool) (m k : Nat) : Int :=
  if negative then -((m * Nat.pow 2 k : Nat) : Int) else ((m * Nat.pow 2 k : Nat) : Int)

/-- The nearest double to `n · 2 ^ e`, for `n` not zero. -/
def ofScaled (n : Int) (e : Int) : Double :=
  ofRatio (n < 0) (numerator n.natAbs e) (denominator e)

/-- The difference of two doubles. A difference of zeros, or of equal numbers, is positive unless
a positive zero is taken from a negative one. -/
def sub : Double → Double → Double
  | nan, _ => nan
  | _, nan => nan
  | inf a, inf b => if a = b then nan else inf a
  | inf a, finite .. => inf a
  | finite .., inf b => inf (!b)
  | finite a m e, finite b n f =>
    let g := min e f
    let d := signed a m (e - g).toNat - signed b n (f - g).toNat
    if d = 0 then zero (a && !b) else ofScaled d g

/-- The product of two doubles. -/
def mul : Double → Double → Double
  | nan, _ => nan
  | _, nan => nan
  | inf a, inf b => inf (a ^^ b)
  | inf a, finite b n _ => if n = 0 then nan else inf (a ^^ b)
  | finite a m _, inf b => if m = 0 then nan else inf (a ^^ b)
  | finite a m e, finite b n f =>
    ofRatio (a ^^ b) (numerator (m * n) (e + f)) (denominator (e + f))

/-- The quotient of a positive integer by a double that is not zero. -/
def quotient (k : Nat) : Double → Double
  | nan => nan
  | inf a => zero a
  | finite a m e => ofRatio a (k * denominator e) (numerator m e)

/-- The integer that a double is equal to, if it is one. -/
def toInt? : Double → Option Int
  | finite a m e =>
    if 0 ≤ e then some (signed a m e.toNat)
    else if m % Nat.pow 2 (-e).toNat = 0 then some (signed a (m / Nat.pow 2 (-e).toNat) 0)
    else none
  | _ => none

end Double

end HdlReview.Decimal
