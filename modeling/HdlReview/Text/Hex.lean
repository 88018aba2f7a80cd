/-!
# Hexadecimal digits

Escapes of quoted texts, of data texts and of request targets spell numbers in base sixteen.

## Main definitions

* `hexDigit n`: the small letter or digit for `n < 16`
* `hexText width n`: the last `width` digits of `n`
* `hexValue? c`: the number a digit of either case stands for
-/

namespace HdlReview.Text

/-- The digit for a number below sixteen, as a small letter from ten on. -/
def hexDigit (n : Nat) : Char :=
  if n < 10 then Char.ofNat (0x30 + n) else Char.ofNat (0x61 + (n - 10))

/-- The last `width` digits of `n`, the highest first. -/
def hexText : Nat → Nat → List Char
  | 0, _ => []
  | width + 1, n => hexText width (n / 16) ++ [hexDigit (n % 16)]

/-- The number that a digit of either case stands for. -/
def hexValue? (c : Char) : Option Nat :=
  let n := c.toNat
  if 0x30 ≤ n && n ≤ 0x39 then some (n - 0x30)
  else if 0x61 ≤ n && n ≤ 0x66 then some (n - 0x61 + 10)
  else if 0x41 ≤ n && n ≤ 0x46 then some (n - 0x41 + 10)
  else none

/-- The number that a text of digits stands for. -/
def hexNumber? (s : List Char) : Option Nat :=
  s.foldl (fun acc c => acc.bind fun v => (hexValue? c).map (16 * v + ·)) (some 0)

@[simp] theorem length_hexText (width n : Nat) : (hexText width n).length = width := by
  induction width generalizing n with
  | zero => rfl
  | succ width ih => simp [hexText, ih]

end HdlReview.Text
