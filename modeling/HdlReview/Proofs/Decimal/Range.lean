import HdlReview.Decimal.Double
import Mathlib.Tactic.Ring

/-!
# Integers in the range of doubles

An integer has a nearest double that is finite as long as it is closer to the largest double than to
the next power of two. The bound is half a unit above the largest double, and a number at the bound
itself goes beyond the format already, since the tie goes to the even mantissa.

## Main definitions

* `onesThenZeros ones zeros`: a number by its binary digits
* `overflowBound`: the least natural number whose nearest double is infinite

## Main results

* `roundDiv_lt_iff`: when a rounded quotient stays below an even number
* `isFinite_ofInt_iff`: which integers have a finite nearest double
-/

namespace HdlReview.Decimal

/-! ## Rounded quotients -/

theorem roundDiv_le (num den : Nat) : roundDiv num den ≤ num / den + 1 := by
  simp only [roundDiv]
  repeat' split
  all_goals omega

theorem div_le_roundDiv (num den : Nat) : num / den ≤ roundDiv num den := by
  simp only [roundDiv]
  repeat' split
  all_goals omega

/-- **A rounded quotient stays below an even number** just if the quotient is less than half a unit
away from it: a quotient half a unit below goes up to the even number. -/
theorem roundDiv_lt_iff {num den k : Nat} (hden : 0 < den) (hk : k % 2 = 0) (hpos : 0 < k) :
    roundDiv num den < k ↔ 2 * num < (2 * k - 1) * den := by
  obtain ⟨j, rfl⟩ : ∃ j, k = j + 1 := ⟨k - 1, by omega⟩
  have hnum : den * (num / den) + num % den = num := Nat.div_add_mod num den
  have hr : num % den < den := Nat.mod_lt num hden
  have hbound : (2 * (j + 1) - 1) * den = 2 * (j * den) + den := by
    rw [show 2 * (j + 1) - 1 = 2 * j + 1 by omega]
    ring
  rw [hbound]
  -- the floor of the quotient is below the last number under the bound, or it is that number
  rcases Nat.lt_trichotomy (num / den) j with hlt | heq | hgt
  · have hmul : den * (num / den + 1) ≤ den * j := Nat.mul_le_mul_left den hlt
    have hle := roundDiv_le num den
    rw [Nat.mul_add, Nat.mul_one, Nat.mul_comm den j] at hmul
    constructor
    · intro _
      omega
    · intro _
      omega
  · rw [heq, Nat.mul_comm] at hnum
    simp only [roundDiv, heq]
    -- the last number is odd, so that a tie goes up
    split
    · omega
    · split
      · omega
      · split
        · omega
        · omega
  · have hmul : den * (j + 1) ≤ den * (num / den) := Nat.mul_le_mul_left den hgt
    have hle := div_le_roundDiv num den
    rw [Nat.mul_add, Nat.mul_one, Nat.mul_comm den j] at hmul
    constructor
    · intro _
      omega
    · intro _
      omega

/-! ## Integers -/

/-- The number with some ones and then some zeros as its binary digits. -/
def onesThenZeros (ones zeros : Nat) : Nat :=
  (Nat.pow 2 ones - 1) * Nat.pow 2 zeros

/-- **The least natural number beyond the range of doubles**. The largest double has 53 ones and 971
zeros, and half a unit more is one more one in place of a zero. -/
def overflowBound : Nat :=
  onesThenZeros 54 970

namespace Double

theorem floorLog2_one {n : Nat} (hn : n ≠ 0) : floorLog2 n 1 = n.log2 := by
  have hle : 2 ^ n.log2 ≤ n := Nat.log2_self_le hn
  have hone : Nat.log2 1 = 0 := by decide
  simp [floorLog2, twoPowLe, hone, hle]

theorem isFinite_pack_iff {negative : Bool} {m : Nat} {e : Int} :
    (pack negative m e).isFinite = true ↔
      e < greatestExponent ∨ e = greatestExponent ∧ m ≠ Nat.pow 2 53 := by
  simp only [pack]
  repeat' split
  all_goals simp only [isFinite, Bool.false_eq_true, true_iff, false_iff]
  all_goals omega

/-- The double nearest to an integer that is not zero; its highest binary digit gives the
exponent. -/
theorem ofInt_of_ne_zero {n : Int} (hn : n.natAbs ≠ 0) :
    ofInt n = pack (n < 0) (roundAt n.natAbs 1 (n.natAbs.log2 - 52)) (n.natAbs.log2 - 52) := by
  have hexponent : max ((n.natAbs.log2 : Int) - 52) leastExponent = n.natAbs.log2 - 52 := by
    unfold leastExponent
    omega
  simp only [ofInt, ofRatio, hn, if_false, floorLog2_one hn, hexponent]

section Exponent

-- half a unit at the greatest exponent is `2 ^ g`; a variable keeps the powers from being computed
variable {g : Nat}

/-- The mantissa of a number with as many digits as the largest double stays in its range just if
the number is less than half a unit above that double. -/
theorem roundAt_ne_iff {n : Nat} (hn : n.log2 = 53 + g) :
    roundAt n 1 (g + 1) ≠ Nat.pow 2 53 ↔ n < onesThenZeros 54 g := by
  have hround : roundAt n 1 (g + 1) = roundDiv n (2 ^ (g + 1)) := by
    have hexponent : (0 : Int) ≤ g + 1 := by omega
    have hnat : ((g : Int) + 1).toNat = g + 1 := by omega
    rw [roundAt, if_pos hexponent, hnat, Nat.one_mul]
    rfl
  have hden : 0 < 2 ^ (g + 1) := Nat.pow_pos (by decide)
  -- the quotient has 53 binary digits, so the mantissa is at most the next power of two
  have hdigits : n < 2 ^ 53 * 2 ^ (g + 1) := by
    have hlt : n < 2 ^ (n.log2 + 1) := Nat.lt_log2_self
    rwa [hn, Nat.add_assoc, Nat.pow_add] at hlt
  have hquotient : n / 2 ^ (g + 1) < 2 ^ 53 := (Nat.div_lt_iff_lt_mul hden).2 hdigits
  have hup := roundDiv_le n (2 ^ (g + 1))
  have hiff := @roundDiv_lt_iff n _ (2 ^ 53) hden (by decide) (by decide)
  have htwice : (2 * 2 ^ 53 - 1) * 2 ^ (g + 1) = 2 * onesThenZeros 54 g := by
    have hcoefficient : 2 * 2 ^ 53 - 1 = Nat.pow 2 54 - 1 := by decide
    have hzeros : 2 ^ (g + 1) = 2 * Nat.pow 2 g := Nat.pow_succ'
    rw [hcoefficient, hzeros, onesThenZeros]
    ring
  have hpow : Nat.pow 2 53 = 2 ^ 53 := rfl
  rw [htwice] at hiff
  rw [hround, hpow]
  omega

theorem isFinite_ofInt_iff_lt (hg : greatestExponent = g + 1) {n : Int} :
    (ofInt n).isFinite = true ↔ n.natAbs < onesThenZeros 54 g := by
  by_cases hn : n.natAbs = 0
  · have hzero : ofInt n = zero (n < 0) := by simp only [ofInt, ofRatio, hn, if_true]
    have hpos : 0 < onesThenZeros 54 g := Nat.mul_pos (by decide) (Nat.pow_pos (by decide))
    rw [hzero, hn]
    exact ⟨fun _ => hpos, fun _ => rfl⟩
  · rw [ofInt_of_ne_zero hn, isFinite_pack_iff, hg]
    have hlow : 2 ^ n.natAbs.log2 ≤ n.natAbs := Nat.log2_self_le hn
    have hhigh : n.natAbs < 2 ^ (n.natAbs.log2 + 1) := Nat.lt_log2_self
    rcases Nat.lt_trichotomy n.natAbs.log2 (53 + g) with hlt | heq | hgt
    · -- too few digits to come near the bound
      have hdigits : 2 ^ (n.natAbs.log2 + 1) ≤ 2 ^ (53 + g) :=
        Nat.pow_le_pow_right (by decide) hlt
      have hbound : 2 ^ (53 + g) ≤ onesThenZeros 54 g := by
        rw [Nat.pow_add]
        exact Nat.mul_le_mul_right _ (by decide)
      have hexponent : (n.natAbs.log2 : Int) - 52 < g + 1 := by omega
      exact ⟨fun _ => by omega, fun _ => .inl hexponent⟩
    · -- as many digits as the largest double
      have hexponent : (n.natAbs.log2 : Int) - 52 = g + 1 := by omega
      rw [hexponent, roundAt_ne_iff heq]
      simp
    · -- too many digits, whatever they are
      have hdigits : 2 ^ (54 + g) ≤ 2 ^ n.natAbs.log2 :=
        Nat.pow_le_pow_right (by decide) (by omega)
      have hbound : onesThenZeros 54 g ≤ 2 ^ (54 + g) := by
        rw [Nat.pow_add]
        exact Nat.mul_le_mul_right _ (by decide)
      constructor
      · intro h
        omega
      · intro h
        omega

end Exponent

/-- **Integers in the range of doubles**: those below the bound have a finite nearest double. -/
theorem isFinite_ofInt_iff {n : Int} : (ofInt n).isFinite = true ↔ n.natAbs < overflowBound := by
  have hg : greatestExponent = (970 : Nat) + 1 := rfl
  exact isFinite_ofInt_iff_lt hg

end Double

end HdlReview.Decimal
