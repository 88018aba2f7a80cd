import HdlReview.Decimal.Reading
import HdlReview.Proofs.Decimal.Range
import Mathlib.Data.List.DropRight
import Mathlib.Tactic.IntervalCases

/-!
# Numbers as numerals

The text of an integer and the text of a finite double are numerals: a sign, digits without a
superfluous zero at their front, and perhaps a fraction and an exponent. An integer has neither of
the two; a double always has one of them, so its text is never taken for that of an integer.

## Main definitions

* `Numeral`, `Numeral.text`: the parts of a numeral, and its text
* `Numeral.IsWhole`: neither fraction nor exponent
* `Numeral.integer`, `Numeral.double`: the numbers that a numeral stands for

## Main results

* `natOf_digitsOf`: the number of the digits of a number
* `Numeral.text_ofInt`, `Numeral.integer_ofInt`: integers
* `exists_numeral_text`: doubles
-/

namespace HdlReview.Decimal

/-! ## Digits -/

theorem isDigit_of_mem_digitsOf {n : Nat} {c : Char} (hc : c ∈ digitsOf n) : c.isDigit = true :=
  Nat.isDigit_of_mem_toDigits (by decide) (by decide) hc

theorem ne_of_isDigit {c k : Char} (hc : c.isDigit = true) (hk : k.isDigit = false) : c ≠ k := by
  rintro rfl
  exact absurd (hc.symm.trans hk) (by decide)

theorem digitsOf_ne_nil (n : Nat) : digitsOf n ≠ [] :=
  Nat.toDigits_ne_nil

theorem natOf_digitsOf (n : Nat) : natOf (digitsOf n) = n :=
  Nat.ofDigitChars_ten_toDigits

/-- The digits of a number end where a character that is no digit follows. -/
theorem digitsOf_append_inj {n m : Nat} {c d : Char} {s t : List Char} (hc : c.isDigit = false)
    (hd : d.isDigit = false) (h : digitsOf n ++ c :: s = digitsOf m ++ d :: t) :
    n = m ∧ c :: s = d :: t := by
  have htake (k : Nat) {x : Char} (r : List Char) (hx : x.isDigit = false) :
      (digitsOf k ++ x :: r).takeWhile Char.isDigit = digitsOf k := by
    rw [List.takeWhile_append_of_pos fun _ => isDigit_of_mem_digitsOf, List.takeWhile_cons_of_neg,
      List.append_nil]
    simpa using hx
  have hdigits : digitsOf n = digitsOf m := by
    rw [← htake n s hc, h, htake m t hd]
  have hnumber : n = m := by
    rw [← natOf_digitsOf n, hdigits, natOf_digitsOf]
  rw [hdigits] at h
  exact ⟨hnumber, List.append_cancel_left h⟩

theorem digitChar_ne_zero {n : Nat} (hpos : n ≠ 0) (hn : n < 10) : n.digitChar ≠ '0' := by
  interval_cases n <;> simp_all

/-- The digits of a positive number do not start with a zero. -/
theorem head?_digitsOf_ne {n : Nat} (hn : n ≠ 0) : (digitsOf n).head? ≠ some '0' := by
  induction n using Nat.strongRecOn with
  | ind n ih =>
    rw [digitsOf]
    by_cases hlt : n < 10
    · rw [Nat.toDigits_of_lt_base hlt]
      simpa using digitChar_ne_zero hn hlt
    · have hle : 10 ≤ n := Nat.le_of_not_lt hlt
      rw [Nat.toDigits_of_base_le (by decide) hle,
        List.head?_append_of_ne_nil _ Nat.toDigits_ne_nil]
      exact ih (n / 10) (by omega) (by omega)

theorem isDigit_zeros (n : Nat) : ∀ c ∈ zeros n, c.isDigit = true := by
  intro c hc
  obtain rfl := List.eq_of_mem_replicate hc
  rfl

/-- Without the zeros at its end, a digit string keeps its first digit if that is no zero. -/
theorem dropEndZeros_cons {d : Char} (ds : List Char) (hd : d ≠ '0') :
    ∃ ds', ds' ⊆ ds ∧ dropEndZeros (d :: ds) = d :: ds' := by
  -- what is left is a front of the digits, and not empty because of the first one
  have hprefix : dropEndZeros (d :: ds) <+: d :: ds := List.rdropWhile_prefix (· == '0') (d :: ds)
  have hne : dropEndZeros (d :: ds) ≠ [] := by
    intro hnil
    have hall := List.rdropWhile_eq_nil_iff.1 hnil d (List.mem_cons_self ..)
    exact hd (by simpa using hall)
  obtain ⟨c, ds', he⟩ := List.exists_cons_of_ne_nil hne
  rw [he] at hprefix
  obtain ⟨rfl, hrest⟩ := List.cons_prefix_cons.1 hprefix
  exact ⟨ds', hrest.subset, he⟩

/-! ## Numerals -/

/-- **A numeral**: a sign, digits that start with a zero only if that is all, the digits behind a
point, and the sign and the digits of an exponent. -/
structure Numeral where
  negative : Bool
  whole : List Char
  fraction : List Char
  exponent : Option (Bool × List Char)
  whole_ne_nil : whole ≠ []
  whole_digits : ∀ c ∈ whole, c.isDigit = true
  whole_zero : whole.head? = some '0' → whole = ['0']
  fraction_digits : ∀ c ∈ fraction, c.isDigit = true
  exponent_digits : ∀ x ∈ exponent, x.2 ≠ [] ∧ ∀ c ∈ x.2, c.isDigit = true

/-- Digits behind a point, or nothing. -/
def pointText : List Char → List Char
  | [] => []
  | c :: ds => '.' :: c :: ds

/-- An exponent with its mark, or nothing. -/
def powerText : Option (Bool × List Char) → List Char
  | none => []
  | some (negative, ds) => 'e' :: (if negative then '-' else '+') :: ds

namespace Numeral

/-- The text of a numeral. -/
def text (n : Numeral) : List Char :=
  signText n.negative ++ (n.whole ++ (pointText n.fraction ++ powerText n.exponent))

/-- Whether a numeral has neither fraction nor exponent. -/
def IsWhole (n : Numeral) : Prop :=
  n.fraction = [] ∧ n.exponent = none

instance (n : Numeral) : Decidable n.IsWhole :=
  inferInstanceAs (Decidable (n.fraction = [] ∧ n.exponent = none))

/-- The integer before the point. -/
def integer (n : Numeral) : Int :=
  if n.negative then -(natOf n.whole : Int) else natOf n.whole

/-- The double that a numeral stands for. -/
def double (n : Numeral) : Double :=
  let power := (n.exponent.map fun x => if x.1 then -(natOf x.2 : Int) else natOf x.2).getD 0
  ofDecimal n.negative (natOf (n.whole ++ n.fraction)) (power - n.fraction.length)

/-- The numeral of an integer. -/
def ofInt (k : Int) : Numeral where
  negative := k < 0
  whole := digitsOf k.natAbs
  fraction := []
  exponent := none
  whole_ne_nil := digitsOf_ne_nil _
  whole_digits := fun _ hc => isDigit_of_mem_digitsOf hc
  whole_zero := by
    intro hhead
    by_cases hk : k.natAbs = 0
    · rw [hk]
      rfl
    · exact absurd hhead (head?_digitsOf_ne hk)
  fraction_digits := by simp
  exponent_digits := by simp

theorem text_ofInt (k : Int) : (ofInt k).text = (intText k).toList := by
  simp [text, ofInt, intText, pointText, powerText]

theorem integer_ofInt (k : Int) : (ofInt k).integer = k := by
  simp only [integer, ofInt, natOf_digitsOf, decide_eq_true_eq]
  split <;> omega

end Numeral

/-! ## Doubles -/

/-- The digits on a grid that read back as a positive double are not zero. -/
theorem ne_zero_of_gridDigits? {m num den d : Nat} {e j : Int} (hm : m ≠ 0)
    (hd : gridDigits? (.finite false m e) num den j = some d) : d ≠ 0 := by
  have hzero : ofDecimal false 0 j ≠ .finite false m e := by
    rw [ofDecimal, if_pos rfl, Double.zero]
    simp [hm.symm]
  have hlow : ∀ low, ofDecimal false low j = .finite false m e → low ≠ 0 := by
    rintro low hreads rfl
    exact hzero hreads
  simp only [gridDigits?] at hd
  generalize onGrid num den j = p at hd
  obtain ⟨a, b⟩ := p
  dsimp only at hd
  split at hd
  · next hreads _ =>
    have hle : a / b ≤ roundDiv a b := div_le_roundDiv a b
    have hne : a / b ≠ 0 := hlow _ (of_decide_eq_true hreads)
    obtain rfl := Option.some.inj hd
    exact Nat.ne_of_gt (Nat.lt_of_lt_of_le (Nat.pos_of_ne_zero hne) hle)
  · next hreads _ =>
    obtain rfl := Option.some.inj hd
    exact hlow _ (of_decide_eq_true hreads)
  · obtain rfl := Option.some.inj hd
    exact Nat.succ_ne_zero _
  · cases hd

/-- The shortest digits of a positive double are not zero, if there are any. -/
theorem shortest_cases {m : Nat} (e : Int) (hm : m ≠ 0) :
    (shortest m e).1 ≠ 0 ∨ shortest m e = (0, 0) := by
  rw [shortest]
  generalize hfound : List.findSome? _ _ = found
  cases found with
  | none => exact .inr rfl
  | some x =>
    obtain ⟨i, -, hi⟩ := List.exists_of_findSome?_eq_some hfound
    obtain ⟨d, hd, rfl⟩ := Option.map_eq_some_iff.1 hi
    exact .inl (ne_zero_of_gridDigits? hm hd)

theorem pointText_of_ne_nil {ds : List Char} (hds : ds ≠ []) : pointText ds = '.' :: ds := by
  obtain ⟨d, ds, rfl⟩ := List.exists_cons_of_ne_nil hds
  rfl

/-- The point behind the first `k` digits, for digits that do not start with a zero. -/
theorem exists_numeral_point (negative : Bool) {ds : List Char} {k : Nat} (hk : k ≠ 0)
    (hne : ds ≠ []) (hhead : ds.head? ≠ some '0') (hdigits : ∀ c ∈ ds, c.isDigit = true) :
    ∃ n : Numeral, ¬ n.IsWhole ∧ n.text = signText negative ++
      (ds.take k ++ '.' :: if ds.drop k = [] then ['0'] else ds.drop k) := by
  have hfraction : (if ds.drop k = [] then ['0'] else ds.drop k) ≠ [] := by
    split
    · simp
    · assumption
  refine ⟨⟨negative, ds.take k, if ds.drop k = [] then ['0'] else ds.drop k, none, ?_, ?_, ?_, ?_,
    by simp⟩, fun hwhole => hfraction hwhole.1, ?_⟩
  · simp [List.take_eq_nil_iff, hk, hne]
  · exact fun c hc => hdigits c (List.mem_of_mem_take hc)
  · intro hzero
    rw [List.head?_take, if_neg hk] at hzero
    exact absurd hzero hhead
  · intro c hc
    split at hc
    · obtain rfl := List.mem_singleton.1 hc
      rfl
    · exact hdigits c (List.mem_of_mem_drop hc)
  · rw [Numeral.text, pointText_of_ne_nil hfraction, powerText, List.append_nil]

theorem exists_powerText (p : Int) :
    ∃ power, exponentText p = powerText (some power) ∧ power.2 ≠ [] ∧
      ∀ c ∈ power.2, c.isDigit = true := by
  refine ⟨(decide (p < 0), zeros (2 - (digitsOf p.natAbs).length) ++ digitsOf p.natAbs), ?_, ?_, ?_⟩
  · simp [exponentText, powerText]
  · simp [digitsOf_ne_nil]
  · exact List.forall_mem_append.2 ⟨isDigit_zeros _, fun c hc => isDigit_of_mem_digitsOf hc⟩

/-- **Digits that are laid out** make a numeral with a fraction or an exponent. -/
theorem exists_numeral_layOut (negative : Bool) (p : Int) {d : Char} {ds : List Char}
    (hd : d ≠ '0') (hdigits : ∀ c ∈ d :: ds, c.isDigit = true) :
    ∃ n : Numeral, ¬ n.IsWhole ∧ n.text = signText negative ++ layOut (d :: ds) p := by
  have hrest : ∀ c ∈ ds, c.isDigit = true := fun c hc => hdigits c (List.mem_cons_of_mem d hc)
  rw [layOut]
  split
  · -- an exponent
    obtain ⟨power, hpower, hne, hpowerDigits⟩ := exists_powerText p
    refine ⟨⟨negative, [d], ds, some power, by simp, ?_, ?_, hrest, ?_⟩, ?_, ?_⟩
    · intro c hc
      exact hdigits c (List.mem_cons.2 (.inl (List.mem_singleton.1 hc)))
    · intro hzero
      exact absurd (Option.some.inj hzero) hd
    · rintro x ⟨⟩
      exact ⟨hne, hpowerDigits⟩
    · rintro ⟨-, hnone⟩
      cases hnone
    · rw [Numeral.text, ← hpower]
      cases ds <;> simp [scientific, pointText]
  · split
    · -- a point behind the digits, or behind zeros that fill them up
      refine exists_numeral_point negative (Nat.succ_ne_zero p.toNat) (by simp) ?_ ?_
      · simpa using hd
      · exact List.forall_mem_append.2 ⟨hdigits, isDigit_zeros _⟩
    · -- a point before the digits
      refine ⟨⟨negative, ['0'], zeros ((-p).toNat - 1) ++ d :: ds, none, by simp, ?_, fun _ => rfl,
        ?_, by simp⟩, ?_, ?_⟩
      · exact List.forall_mem_singleton.2 rfl
      · exact List.forall_mem_append.2 ⟨isDigit_zeros _, hdigits⟩
      · rintro ⟨hnil, -⟩
        simp at hnil
      · rw [Numeral.text, pointText_of_ne_nil (by simp)]
        simp [positionalSmall, powerText]

/-- The text of zero. -/
def zeroNumeral (negative : Bool) : Numeral where
  negative := negative
  whole := ['0']
  fraction := ['0']
  exponent := none
  whole_ne_nil := by simp
  whole_digits := List.forall_mem_singleton.2 rfl
  whole_zero := fun _ => rfl
  fraction_digits := List.forall_mem_singleton.2 rfl
  exponent_digits := by simp

/-- **The text of a finite double** is a numeral with a fraction or an exponent. -/
theorem exists_numeral_text (negative : Bool) (m : Nat) (e : Int) :
    ∃ n : Numeral, ¬ n.IsWhole ∧ n.text = (Double.finite negative m e).text.toList := by
  have hzero : ¬ (zeroNumeral negative).IsWhole := fun hwhole => List.cons_ne_nil _ _ hwhole.1
  rw [Double.text, String.toList_ofList, Double.magnitudeText]
  split
  · exact ⟨zeroNumeral negative, hzero, rfl⟩
  · next hm =>
    rcases shortest_cases e hm with hne | hnone
    · generalize shortest m e = x at hne
      obtain ⟨digits, j⟩ := x
      -- the first digit is no zero, so it stays when the zeros at the end are dropped
      obtain ⟨d, ds, hds⟩ := List.exists_cons_of_ne_nil (digitsOf_ne_nil digits)
      have hd : d ≠ '0' := by
        have hhead := head?_digitsOf_ne hne
        rw [hds] at hhead
        simpa using hhead
      obtain ⟨ds', hsub, hdrop⟩ := dropEndZeros_cons ds hd
      have hdigits : ∀ c ∈ d :: ds', c.isDigit = true := by
        intro c hc
        apply isDigit_of_mem_digitsOf (n := digits)
        rw [hds]
        exact List.cons_subset_cons d hsub hc
      dsimp only
      rw [hds, hdrop]
      exact exists_numeral_layOut negative _ hd hdigits
    · rw [hnone]
      exact ⟨zeroNumeral negative, hzero, rfl⟩

end HdlReview.Decimal
