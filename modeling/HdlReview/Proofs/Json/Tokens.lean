import HdlReview.Json.Token
import HdlReview.Json.Writer
import HdlReview.Proofs.Decimal.Numerals
import HdlReview.Proofs.Scan.Front

/-!
# Tokens of written values

Reading undoes writing on texts and numbers. A written text is read back whatever its characters
are: the quotation mark and the backslash, controls, and characters that take two code units. A
written integer is read back whatever its size, and the text of a double is read as a double. Where
the text of a number ends must show in what follows it.

## Main definitions

* `EndsNumber s`: no number goes on at the front of a text

## Main results

* `hexNumber?_hexText`: hexadecimal digits
* `readText_flatMap`, `tokenAt_writeText`: texts
* `readNumber?_text`, `tokenAt_intText`, `exists_tokenAt_writeDouble`: numbers
-/

namespace HdlReview.Text

/-! ## Hexadecimal digits -/

theorem hexValue?_hexDigit : ∀ {n : Nat}, n < 16 → hexValue? (hexDigit n) = some n := by
  decide

/-- **The number of the last digits** is the number itself if there are enough of them. -/
theorem hexNumber?_hexText {width n : Nat} (hn : n < 16 ^ width) :
    hexNumber? (hexText width n) = some n := by
  induction width generalizing n with
  | zero =>
    obtain rfl : n = 0 := by omega
    rfl
  | succ width ih =>
    have hquot : hexNumber? (hexText width (n / 16)) = some (n / 16) := by
      apply ih
      rw [Nat.pow_succ] at hn
      omega
    have hdigit : hexValue? (hexDigit (n % 16)) = some (n % 16) :=
      hexValue?_hexDigit (Nat.mod_lt n (by decide))
    rw [hexNumber?] at hquot
    rw [hexNumber?, hexText, List.foldl_append, hquot]
    simp only [List.foldl_cons, List.foldl_nil, Option.bind_some, hdigit, Option.map_some]
    exact congrArg some (Nat.div_add_mod n 16)

end HdlReview.Text

namespace HdlReview.Json

open HdlReview.Decimal HdlReview.Text HdlReview.Scan

variable {τ : Type} {spell : RawText → τ} {start position : Nat} {high : Option Nat} {acc : RawText}
  {s rest : List Char} {digits : Option Nat}

/-! ## Texts -/

theorem readText_unitEscape {n : Nat} (hn : n < 0x10000) (hs : s ≠ []) :
    readText [] start position high acc (unitEscape n ++ s) =
      readText [] start (position + 6) (pushUnit high acc n).1 (pushUnit high acc n).2 s := by
  obtain ⟨a, b, c, d, hdigits⟩ : ∃ a b c d, hexText 4 n = [a, b, c, d] := ⟨_, _, _, _, rfl⟩
  have hnumber : hexNumber? [a, b, c, d] = some n := by
    rw [← hdigits]
    exact hexNumber?_hexText hn
  rw [unitEscape, hdigits]
  simp [readText, hnumber, hs]

/-- **How a character is written**: by a short escape, as it is, by one code unit, or by two. -/
theorem escapeChar_cases (c : Char) :
    (∃ e, e ≠ 'u' ∧ shortEscape? e = some c ∧ escapeChar c = ['\\', e]) ∨
    (0x20 ≤ c.toNat ∧ c ≠ '"' ∧ c ≠ '\\' ∧ escapeChar c = [c]) ∨
    (c.toNat < 0x10000 ∧ escapeChar c = unitEscape c.toNat) ∨
    (0x10000 ≤ c.toNat ∧ escapeChar c =
      unitEscape (0xD800 + (c.toNat - 0x10000) / 0x400) ++
        unitEscape (0xDC00 + (c.toNat - 0x10000) % 0x400)) := by
  have hshort : ∀ e, e ≠ 'u' → shortEscape? e = some c → escapeChar c = ['\\', e] →
      ∃ e, e ≠ 'u' ∧ shortEscape? e = some c ∧ escapeChar c = ['\\', e] :=
    fun e hu he hc => ⟨e, hu, he, hc⟩
  -- the seven characters with short escapes come first
  by_cases hquote : c = '"'
  · subst hquote
    exact .inl (hshort '"' (by decide) rfl rfl)
  by_cases hslash : c = '\\'
  · subst hslash
    exact .inl (hshort '\\' (by decide) rfl rfl)
  by_cases hfeed : c = '\n'
  · subst hfeed
    exact .inl (hshort 'n' (by decide) rfl rfl)
  by_cases hreturn : c = '\r'
  · subst hreturn
    exact .inl (hshort 'r' (by decide) rfl rfl)
  by_cases htab : c = '\t'
  · subst htab
    exact .inl (hshort 't' (by decide) rfl rfl)
  by_cases hback : c = '\x08'
  · subst hback
    exact .inl (hshort 'b' (by decide) rfl rfl)
  by_cases hform : c = '\x0c'
  · subst hform
    exact .inl (hshort 'f' (by decide) rfl rfl)
  right
  simp only [escapeChar, beq_iff_eq, hquote, hslash, hfeed, hreturn, htab, hback, hform, if_false,
    Bool.and_eq_true, decide_eq_true_eq]
  by_cases hplain : 0x20 ≤ c.toNat ∧ c.toNat ≤ 0x7E
  · rw [if_pos hplain]
    exact .inl ⟨hplain.1, hquote, hslash, rfl⟩
  rw [if_neg hplain]
  right
  by_cases hunit : c.toNat < 0x10000
  · rw [if_pos hunit]
    exact .inl ⟨hunit, rfl⟩
  · rw [if_neg hunit]
    exact .inr ⟨Nat.le_of_not_lt hunit, rfl⟩

/-- A code unit of a character that takes just one. -/
theorem pushUnit_toNat (c : Char) : pushUnit none acc c.toNat = (none, .char c :: acc) := by
  have hvalid : c.toNat < 0xD800 ∨ 0xDFFF < c.toNat ∧ c.toNat < 0x110000 := c.valid
  have hlow : isLowHalf c.toNat = false := by
    simp only [isLowHalf, Bool.and_eq_false_iff, decide_eq_false_iff_not]
    omega
  have hhigh : isHighHalf c.toNat = false := by
    simp only [isHighHalf, Bool.and_eq_false_iff, decide_eq_false_iff_not]
    omega
  simp [pushUnit, hlow, hhigh, flush, Char.ofNat_toNat]

/-- The two code units of a character that takes two. -/
theorem pushUnit_pair (acc : RawText) {c : Char} (hc : 0x10000 ≤ c.toNat) {high low : Nat}
    (hhigh : high = 0xD800 + (c.toNat - 0x10000) / 0x400)
    (hlow : low = 0xDC00 + (c.toNat - 0x10000) % 0x400) :
    pushUnit none acc high = (some high, acc) ∧
      pushUnit (some high) acc low = (none, .char c :: acc) := by
  have hvalid : c.toNat < 0xD800 ∨ 0xDFFF < c.toNat ∧ c.toNat < 0x110000 := c.valid
  have hnot : isLowHalf high = false := by
    simp only [isLowHalf, Bool.and_eq_false_iff, decide_eq_false_iff_not]
    omega
  have hfirst : isHighHalf high = true := by
    simp only [isHighHalf, Bool.and_eq_true, decide_eq_true_eq]
    omega
  have hsecond : isLowHalf low = true := by
    simp only [isLowHalf, Bool.and_eq_true, decide_eq_true_eq]
    omega
  have hpair : pairChar high low = c := by
    have hnumber : 0x10000 + (high - 0xD800) * 0x400 + (low - 0xDC00) = c.toNat := by omega
    rw [pairChar, hnumber, Char.ofNat_toNat]
  constructor
  · simp [pushUnit, hnot, hfirst, flush]
  · simp [pushUnit, hsecond, hpair]

/-- **A written character is read back**, if something follows it. -/
theorem readText_escapeChar (c : Char) (hs : s ≠ []) :
    readText [] start position none acc (escapeChar c ++ s) =
      readText [] start (position + (escapeChar c).length) none (.char c :: acc) s := by
  rcases escapeChar_cases c with ⟨e, hu, he, hc⟩ | ⟨hprint, hquote, hslash, hc⟩ | ⟨hunit, hc⟩ |
    ⟨hpair, hc⟩
  · rw [hc]
    simp [readText, hu, he, flush]
  · rw [hc]
    simp [readText, hslash, hprint, flush, letterAt]
  · rw [hc, readText_unitEscape hunit hs, pushUnit_toNat]
    simp [unitEscape]
  · have hvalid : c.toNat < 0xD800 ∨ 0xDFFF < c.toNat ∧ c.toNat < 0x110000 := c.valid
    -- the first half waits until the second one has been read
    obtain ⟨hfirst, hsecond⟩ := pushUnit_pair acc hpair rfl rfl
    rw [hc, List.append_assoc, readText_unitEscape (by omega) (by simp [unitEscape]), hfirst,
      readText_unitEscape (by omega) hs, hsecond]
    simp [unitEscape]

/-- **The inside of a written text** is read back up to the closing mark. -/
theorem readText_flatMap (cs : List Char) :
    readText [] start position none acc (cs.flatMap escapeChar ++ '"' :: rest) =
      .ok (acc.reverse ++ cs.map .char, position + (cs.flatMap escapeChar).length + 1) := by
  induction cs generalizing position acc with
  | nil => simp [readText, flush]
  | cons c cs ih =>
    rw [List.flatMap_cons, List.append_assoc, readText_escapeChar c (by simp), ih]
    simp [Nat.add_assoc]

/-- **A written text is read back**. -/
theorem tokenAt_writeText (text : String) :
    tokenAt spell [] digits position (writeText text ++ rest) =
      (.text (spell (.ofString text)), (writeText text).length) := by
  have hread : readText [] position (position + 1) none []
      (text.toList.flatMap escapeChar ++ '"' :: rest) =
        .ok (.ofString text, position + 1 + (text.toList.flatMap escapeChar).length + 1) :=
    readText_flatMap text.toList
  have hlength : position + 1 + (text.toList.flatMap escapeChar).length + 1 - position =
      (writeText text).length := by
    simp [writeText]
    omega
  rw [writeText, List.append_assoc, List.singleton_append, List.cons_append, tokenAt, hread]
  simp only [hlength, writeText]

/-! ## Numbers -/

/-- **No number goes on** at the front of a text. -/
def EndsNumber (s : List Char) : Prop :=
  ∀ c, s.head? = some c → c.isDigit = false ∧ c ≠ '.' ∧ c ≠ 'e' ∧ c ≠ 'E'

variable {n : Numeral}

theorem head?_powerText (exponent : Option (Bool × List Char)) (hrest : EndsNumber rest) :
    ∀ c, (powerText exponent ++ rest).head? = some c → c.isDigit = false ∧ c ≠ '.' := by
  cases exponent with
  | none => exact fun c hc => ⟨(hrest c hc).1, (hrest c hc).2.1⟩
  | some power =>
    rintro c ⟨⟩
    exact ⟨rfl, by decide⟩

theorem head?_pointText (fraction : List Char) (hs : ∀ c, s.head? = some c → c.isDigit = false) :
    ∀ c, (pointText fraction ++ s).head? = some c → c.isDigit = false := by
  cases fraction with
  | nil => exact hs
  | cons d ds =>
    rintro c ⟨⟩
    rfl

theorem wholeDigits_append (n : Numeral) (hs : ∀ c, s.head? = some c → c.isDigit = false) :
    wholeDigits (n.whole ++ s) = n.whole := by
  by_cases hzero : n.whole.head? = some '0'
  · rw [n.whole_zero hzero]
    rfl
  · obtain ⟨d, ds, hds⟩ := List.exists_cons_of_ne_nil n.whole_ne_nil
    have hd : d ≠ '0' := by
      rw [hds] at hzero
      simpa using hzero
    have hspan := (span_of_stop n.whole_digits hs).1
    rw [hds, List.cons_append] at hspan ⊢
    rw [wholeDigits, hspan]
    simpa using hd

theorem fractionDigits_append {fraction : List Char}
    (hfraction : ∀ c ∈ fraction, c.isDigit = true)
    (hs : ∀ c, s.head? = some c → c.isDigit = false ∧ c ≠ '.') :
    fractionDigits (pointText fraction ++ s) = fraction := by
  cases fraction with
  | nil =>
    rw [pointText, List.nil_append, fractionDigits.eq_def]
    split
    · exact absurd rfl (hs '.' rfl).2
    · rfl
  | cons d ds => exact (span_of_stop hfraction fun c hc => (hs c hc).1).1

/-- **An exponent is read back** with the length of its text. -/
theorem exponentAt?_append {exponent : Option (Bool × List Char)}
    (hexponent : ∀ x ∈ exponent, x.2 ≠ [] ∧ ∀ c ∈ x.2, c.isDigit = true)
    (hrest : EndsNumber rest) :
    exponentAt? (powerText exponent ++ rest) =
      exponent.map fun x => (if x.1 then -(natOf x.2 : Int) else natOf x.2,
        (powerText exponent).length) := by
  cases exponent with
  | none =>
    cases rest with
    | nil => rfl
    | cons c rest =>
      obtain ⟨-, -, hsmall, hlarge⟩ := hrest c rfl
      simp [powerText, exponentAt?, hsmall, hlarge]
  | some x =>
    obtain ⟨negative, ds⟩ := x
    obtain ⟨hne, hdigits⟩ := hexponent _ rfl
    have hspan : (ds ++ rest).takeWhile Char.isDigit = ds :=
      (span_of_stop hdigits fun c hc => (hrest c hc).1).1
    have hsign : takeSign ((if negative then '-' else '+') :: (ds ++ rest)) =
        (negative, ds ++ rest) := by
      cases negative <;> rfl
    simp only [powerText, List.cons_append, exponentAt?, hsign, hspan, if_neg hne]
    simp
    omega

theorem length_pointText (fraction : List Char) :
    (if fraction = [] then 0 else 1 + fraction.length) = (pointText fraction).length := by
  cases fraction with
  | nil => rfl
  | cons d ds => simp [pointText, Nat.add_comm]

/-- The sign of a numeral shows in its first character. -/
theorem head?_text (n : Numeral) (rest : List Char) :
    ((n.text ++ rest).head? == some '-') = n.negative := by
  rw [Numeral.text]
  cases n.negative with
  | true => rfl
  | false =>
    obtain ⟨d, ds, hds⟩ := List.exists_cons_of_ne_nil n.whole_ne_nil
    have hd : d.isDigit = true := n.whole_digits d (by simp [hds])
    simpa [signText, hds] using ne_of_isDigit hd (k := '-') rfl

/-- **A numeral is read back** with the length of its text, as an integer if it has neither fraction
nor exponent and as a double otherwise. -/
theorem readNumber?_text (n : Numeral) (hrest : EndsNumber rest) :
    @readNumber? τ digits (n.text ++ rest) =
      if n.IsWhole then
        if digits.any (· < n.whole.length) then some (.longInteger, n.text.length)
        else some (.literal (.int n.integer), n.text.length)
      else some (.literal (.float n.double), n.text.length) := by
  have hpower := head?_powerText n.exponent hrest
  have hpoint := head?_pointText n.fraction fun c hc => (hpower c hc).1
  have hunsigned : (if n.negative = true then (n.text ++ rest).drop 1 else n.text ++ rest) =
      n.whole ++ (pointText n.fraction ++ (powerText n.exponent ++ rest)) := by
    rw [Numeral.text]
    cases n.negative <;> simp [signText]
  have hlength : (if n.negative = true then 1 else 0) + n.whole.length +
      (pointText n.fraction).length +
      (n.exponent.map fun _ => (powerText n.exponent).length).getD 0 = n.text.length := by
    rw [Numeral.text]
    cases n.negative <;> cases n.exponent <;> simp [signText, powerText] <;> omega
  simp only [readNumber?, head?_text, hunsigned, wholeDigits_append n hpoint,
    if_neg n.whole_ne_nil, List.drop_left, fractionDigits_append n.fraction_digits hpower,
    length_pointText, exponentAt?_append n.exponent_digits hrest, hlength, Option.isNone_map,
    Option.isNone_iff_eq_none, Option.map_map, Function.comp_def]
  exact if_congr Iff.rfl rfl rfl

/-! ## Tokens of numbers -/

theorem readLiteral?_of_isDigit (negative : Bool) {d : Char} (hd : d.isDigit = true)
    (s : List Char) : @readLiteral? τ (signText negative ++ d :: s) = none := by
  have hne : ∀ k : Char, k.isDigit = false → k ≠ d := fun k hk => (ne_of_isDigit hd hk).symm
  have hletters := And.intro (hne 'n' rfl) (And.intro (hne 't' rfl) (hne 'f' rfl))
  have hcapitals := And.intro (hne 'N' rfl) (And.intro (hne 'I' rfl) (hne '-' rfl))
  cases negative with
  | true => simp [readLiteral?, literals, signText, hcapitals]
  | false => simp [readLiteral?, literals, signText, hletters, hcapitals]

/-- The characters that are tokens of their own or start a text. -/
def marks : List Char :=
  ['{', '}', '[', ']', ',', ':', '"']

theorem not_isDigit_marks : marks.all (!·.isDigit) = true := rfl

/-- A token that is no mark and no text is a literal or a number. -/
theorem tokenAt_of_not_mark {c : Char} (hc : c ∉ marks) :
    tokenAt spell [] digits position (c :: s) =
      ((readLiteral? (c :: s)).or (readNumber? digits (c :: s))).getD (.unknown, 1) := by
  simp only [marks, List.mem_cons, not_or] at hc
  simp [tokenAt, hc]

/-- **The token at the front of a numeral** is the number that is read. -/
theorem tokenAt_text (n : Numeral) {token : Token τ × Nat}
    (hread : readNumber? digits (n.text ++ rest) = some token) :
    tokenAt spell [] digits position (n.text ++ rest) = token := by
  obtain ⟨d, ds, hds⟩ := List.exists_cons_of_ne_nil n.whole_ne_nil
  have hd : d.isDigit = true := n.whole_digits d (by simp [hds])
  obtain ⟨u, hu⟩ : ∃ u, n.text ++ rest = signText n.negative ++ d :: u :=
    ⟨ds ++ (pointText n.fraction ++ (powerText n.exponent ++ rest)), by simp [Numeral.text, hds]⟩
  -- the first character is a minus or a digit, so no mark, no text and no literal starts here
  have hliteral := @readLiteral?_of_isDigit τ n.negative d hd u
  obtain ⟨c, v, hcv, hc⟩ : ∃ c v, n.text ++ rest = c :: v ∧ c ∉ marks := by
    cases hnegative : n.negative with
    | true => exact ⟨'-', d :: u, by rw [hu, hnegative]; rfl, by decide⟩
    | false =>
      refine ⟨d, u, by rw [hu, hnegative]; rfl, fun hmem => ?_⟩
      have hnot : (!d.isDigit) = true := List.all_eq_true.1 not_isDigit_marks d hmem
      simp [hd] at hnot
  rw [hcv, tokenAt_of_not_mark hc, ← hcv, hread, hu, hliteral]
  rfl

/-- **A written integer is read back**, if it does not have too many digits. -/
theorem tokenAt_intText {k : Int} (hk : digits.any (· < (Numeral.ofInt k).whole.length) = false)
    (hrest : EndsNumber rest) :
    tokenAt spell [] digits position ((intText k).toList ++ rest) =
      (.literal (.int k), (intText k).toList.length) := by
  have hread : @readNumber? τ digits ((Numeral.ofInt k).text ++ rest) =
      some (.literal (.int (Numeral.ofInt k).integer), (Numeral.ofInt k).text.length) := by
    rw [readNumber?_text (Numeral.ofInt k) hrest, hk]
    rfl
  rw [Numeral.integer_ofInt] at hread
  rw [← Numeral.text_ofInt]
  exact tokenAt_text (Numeral.ofInt k) hread

/-- **The text of a double is read as a double**. -/
theorem exists_tokenAt_writeDouble (digits : Option Nat) (x : Double) :
    ∃ y, ∀ position rest, EndsNumber rest →
      tokenAt spell [] digits position (writeDouble x ++ rest) =
        (.literal (.float y), (writeDouble x).length) := by
  cases x with
  | nan => exact ⟨.nan, fun position rest _ => rfl⟩
  | inf negative => exact ⟨.inf negative, fun position rest _ => by cases negative <;> rfl⟩
  | finite negative m e =>
    obtain ⟨n, hwhole, htext⟩ := exists_numeral_text negative m e
    refine ⟨n.double, fun position rest hrest => ?_⟩
    change tokenAt spell [] digits position ((Double.finite negative m e).text.toList ++ rest) =
      (.literal (.float n.double), (Double.finite negative m e).text.toList.length)
    rw [← htext]
    apply tokenAt_text
    rw [readNumber?_text n hrest, if_neg hwhole]

end HdlReview.Json
