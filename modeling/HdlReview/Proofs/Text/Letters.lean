import HdlReview.Text.CaseFold
import HdlReview.Text.Word
import Mathlib.Data.List.Forall2

/-!
# Letters up to case

What folding identifies. A small letter is the folded form of itself and of its capital; the
letters s, i and k are also the folded forms of the long s, of the dotted capital i and the dotless
i, and of the kelvin sign. Texts that differ only in the case of ASCII letters have the same folded
text, and folding moves no character into or out of the class of word characters.

## Main definitions

* `SameLetter c d`: `d` is `c`, or the same ASCII letter in the other case
* `IsForm k c`: the character `c` is the small letter `k` up to case

## Main results

* `foldCase_eq_iff`, `sameFolded_iff_forall₂`: what is folded to a small letter, and to a keyword
* `map_foldCase_eq`: texts that differ only in case have the same folded text
* `isWord_foldCase`: folding keeps the class of a character
-/

namespace HdlReview.Text

/-! ## Capitals and small letters -/

/-- A property of all ASCII characters is one of every character if it holds outside of ASCII. -/
theorem forall_char_of_ascii {P : Char → Prop} (ascii : ∀ n < 0x80, P (Char.ofNat n))
    (other : ∀ c : Char, 0x80 ≤ c.toNat → P c) (c : Char) : P c := by
  rcases Nat.lt_or_ge c.toNat 0x80 with h | h
  · rw [← Char.ofNat_toNat c]
    exact ascii c.toNat h
  · exact other c h

theorem toLower_of_le {c : Char} (h : 0x80 ≤ c.toNat) : c.toLower = c := by
  have hc : ¬ (c.val ≥ 'A'.val ∧ c.val ≤ 'Z'.val) := by
    rintro ⟨-, hz⟩
    have hz : c.toNat ≤ 'Z'.toNat := UInt32.le_iff_toNat_le.1 hz
    have : 'Z'.toNat = 0x5A := rfl
    omega
  exact dif_neg hc

theorem toUpper_of_le {c : Char} (h : 0x80 ≤ c.toNat) : c.toUpper = c := by
  have hc : ¬ ('a'.val ≤ c.val ∧ c.val ≤ 'z'.val) := by
    rintro ⟨-, hz⟩
    have hz : c.toNat ≤ 'z'.toNat := UInt32.le_iff_toNat_le.1 hz
    have : 'z'.toNat = 0x7A := rfl
    omega
  exact dif_neg hc

/-- `d` is `c`, or the same ASCII letter in the other case. -/
def SameLetter (c d : Char) : Prop :=
  d = c ∨ d = c.toUpper ∨ d = c.toLower

instance (c d : Char) : Decidable (SameLetter c d) :=
  inferInstanceAs (Decidable (_ ∨ _))

/-! ## Forms of a letter -/

/-- Characters outside of ASCII that are taken for a small letter. -/
def furtherForms : List (Char × Char) :=
  [('s', '\u017f'), ('i', '\u0130'), ('i', '\u0131'), ('k', '\u212a')]

/-- The character `c` is the small letter `k` up to case. -/
def IsForm (k c : Char) : Prop :=
  c = k ∨ c = k.toUpper ∨ (k, c) ∈ furtherForms

theorem foldCase_of_ascii {c : Char} (h : c.toNat < 0x80) : foldCase c = c.toLower := by
  rw [foldCase.eq_def]
  split
  · exact absurd h (by decide)
  · exact absurd h (by decide)
  · exact absurd h (by decide)
  · exact absurd h (by decide)
  · rfl

theorem foldCase_further : ∀ f ∈ furtherForms, foldCase f.2 = f.1 := by
  decide

/-- Outside of ASCII, a character is folded to the letter it is a further form of, or to itself. -/
theorem foldCase_of_le {c : Char} (h : 0x80 ≤ c.toNat) :
    (foldCase c, c) ∈ furtherForms ∨ foldCase c = c := by
  rw [foldCase.eq_def]
  split
  · exact .inl (by decide)
  · exact .inl (by decide)
  · exact .inl (by decide)
  · exact .inl (by decide)
  · exact .inr (toLower_of_le h)

/-- What is folded to an ASCII letter is the letter or its capital, or one of the further forms. -/
theorem isForm_foldCase (c : Char) : IsForm (foldCase c) c := by
  have ascii : ∀ n < 0x80, (Char.ofNat n) = (Char.ofNat n).toLower ∨
      (Char.ofNat n) = (Char.ofNat n).toLower.toUpper := by
    decide
  rcases Nat.lt_or_ge c.toNat 0x80 with h | h
  · rw [foldCase_of_ascii h]
    have hc := ascii c.toNat h
    rw [Char.ofNat_toNat] at hc
    exact hc.imp_right .inl
  · rcases foldCase_of_le h with hf | hf
    · exact .inr (.inr hf)
    · exact .inl hf.symm

/-- A small letter is the folded form of itself and of its capital. -/
theorem foldCase_of_isLower {k : Char} (hk : k.isLower = true) :
    foldCase k = k ∧ foldCase k.toUpper = k := by
  have ascii : ∀ n < 0x80, (Char.ofNat n).isLower = true →
      foldCase (Char.ofNat n) = Char.ofNat n ∧ foldCase (Char.ofNat n).toUpper = Char.ofNat n := by
    decide
  have hz : k.toNat ≤ 'z'.toNat :=
    UInt32.le_iff_toNat_le.1 (of_decide_eq_true (Bool.and_eq_true_iff.1 hk).2)
  have hc := ascii k.toNat (Nat.lt_of_le_of_lt hz (by decide))
  rw [Char.ofNat_toNat] at hc
  exact hc hk

/-- **What is folded to a small letter** is a form of it. -/
theorem foldCase_eq_iff {k c : Char} (hk : k.isLower = true) : foldCase c = k ↔ IsForm k c := by
  constructor
  · rintro rfl
    exact isForm_foldCase c
  · rintro (rfl | rfl | hf)
    · exact (foldCase_of_isLower hk).1
    · exact (foldCase_of_isLower hk).2
    · exact foldCase_further _ hf

/-- **A text is a keyword up to case** if its characters are forms of the letters of the keyword. -/
theorem sameFolded_iff_forall₂ {k w : List Char} (hk : ∀ c ∈ k, c.isLower = true) :
    sameFolded w k = true ↔ List.Forall₂ IsForm k w := by
  rw [sameFolded_eq_true_iff]
  induction k generalizing w with
  | nil => simp
  | cons a k ih =>
    obtain ⟨ha, hk⟩ := List.forall_mem_cons.1 hk
    cases w with
    | nil => simp
    | cons c w =>
      rw [List.map_cons, List.map_cons, (foldCase_of_isLower ha).1, List.cons.injEq,
        foldCase_eq_iff ha, ih hk, List.forall₂_cons]

/-! ## Folding a text -/

theorem foldCase_eq_of_sameLetter {c d : Char} (h : SameLetter c d) : foldCase d = foldCase c := by
  have hu : foldCase c.toUpper = foldCase c :=
    forall_char_of_ascii (P := fun c => foldCase c.toUpper = foldCase c) (by decide)
      (fun c hc => by rw [toUpper_of_le hc]) c
  have hl : foldCase c.toLower = foldCase c :=
    forall_char_of_ascii (P := fun c => foldCase c.toLower = foldCase c) (by decide)
      (fun c hc => by rw [toLower_of_le hc]) c
  rcases h with rfl | rfl | rfl
  · rfl
  · exact hu
  · exact hl

/-- **Texts that differ only in case** have the same folded text. -/
theorem map_foldCase_eq {s t : List Char} (h : List.Forall₂ SameLetter s t) :
    t.map foldCase = s.map foldCase := by
  induction h with
  | nil => rfl
  | cons hc _ ih => rw [List.map_cons, List.map_cons, foldCase_eq_of_sameLetter hc, ih]

/-- A property that folding keeps in ASCII and on the further forms is kept by folding. -/
theorem apply_foldCase {α : Type} {f : Char → α}
    (ascii : ∀ n < 0x80, f (Char.ofNat n).toLower = f (Char.ofNat n))
    (further : ∀ p ∈ furtherForms, f p.1 = f p.2) (c : Char) : f (foldCase c) = f c := by
  rcases Nat.lt_or_ge c.toNat 0x80 with h | h
  · rw [foldCase_of_ascii h]
    simpa only [Char.ofNat_toNat] using ascii c.toNat h
  · rcases foldCase_of_le h with hf | hf
    · exact further _ hf
    · rw [hf]

theorem foldCase_foldCase (c : Char) : foldCase (foldCase c) = foldCase c :=
  apply_foldCase (by decide) (by decide) c

/-- Folding moves no character into or out of words. -/
theorem isWord_foldCase (c : Char) : isWord (foldCase c) = isWord c :=
  apply_foldCase (by decide +kernel) (by decide +kernel) c

theorem foldCase_beq_newline (c : Char) : (foldCase c == '\n') = (c == '\n') :=
  apply_foldCase (f := (· == '\n')) (by decide) (by decide) c

end HdlReview.Text
