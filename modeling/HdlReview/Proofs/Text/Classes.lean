import HdlReview.Text.Blank
import HdlReview.Text.Word

/-!
# Character classes

How the classes of characters lie to each other: what may continue an identifier is a word
character, the ASCII word characters are just these, and no blank is a word character.

## Main results

* `isWord_of_isIdentRest`, `isIdentRest_of_isWord`
* `isWord_eq_false_of_isBlank`, `isBlank_eq_false_of_isWord`
-/

namespace HdlReview.Text

theorem toNat_lt_of_isIdentRest {c : Char} (h : isIdentRest c = true) : c.toNat < 0x80 := by
  have below : ∀ {d : Char}, c.val ≤ d.val → d.toNat < 0x80 → c.toNat < 0x80 :=
    fun hd => Nat.lt_of_le_of_lt (UInt32.le_iff_toNat_le.1 hd)
  -- each of the four classes has a last character, and these are ASCII
  simp only [isIdentRest, Char.isAlphanum, Bool.or_eq_true] at h
  rcases h with (h | h) | h
  · rcases Bool.or_eq_true_iff.1 h with h | h
    · exact below (d := 'Z') (of_decide_eq_true h).2 (by decide)
    · exact below (d := 'z') (of_decide_eq_true (Bool.and_eq_true_iff.1 h).2) (by decide)
  · exact below (d := '9') (of_decide_eq_true (Bool.and_eq_true_iff.1 h).2) (by decide)
  · rw [beq_iff_eq.1 h]
    decide

theorem isWord_of_isIdentRest {c : Char} (h : isIdentRest c = true) : isWord c = true := by
  rw [isWord, if_pos (toNat_lt_of_isIdentRest h), h]

theorem isIdentRest_of_isWord {c : Char} (hc : c.toNat < 0x80) (h : isWord c = true) :
    isIdentRest c = true := by
  rwa [isWord, if_pos hc] at h

/-- The code points of the blanks. -/
def blankRanges : List (Nat × Nat) :=
  [(0x09, 0x0D), (0x20, 0x20), (0x85, 0x85), (0xA0, 0xA0), (0x1680, 0x1680), (0x2000, 0x200A),
    (0x2028, 0x2029), (0x202F, 0x202F), (0x205F, 0x205F), (0x3000, 0x3000), (0x1C, 0x1F)]

theorem inRanges_of_isBlank {c : Char} (h : isBlank c = true) :
    inRanges blankRanges c.toNat = true := by
  simp only [isBlank, isSpace, Bool.or_eq_true, Bool.and_eq_true, decide_eq_true_eq,
    beq_iff_eq] at h
  simp only [inRanges, blankRanges, List.any_cons, List.any_nil, Bool.or_eq_true, Bool.and_eq_true,
    decide_eq_true_eq, Bool.or_false]
  omega

theorem isWord_eq_false_of_isBlank {c : Char} (h : isBlank c = true) : isWord c = false := by
  -- the ranges hold few characters, so each can be looked up
  have hall : ∀ r ∈ blankRanges, ∀ k ≤ r.2 - r.1, isWord (Char.ofNat (r.1 + k)) = false := by
    decide +kernel
  obtain ⟨r, hr, hlo, hhi⟩ := inRanges_eq_true_iff.1 (inRanges_of_isBlank h)
  have hc := hall r hr (c.toNat - r.1) (Nat.sub_le_sub_right hhi r.1)
  rwa [Nat.add_sub_cancel' hlo, Char.ofNat_toNat] at hc

theorem isBlank_eq_false_of_isWord {c : Char} (h : isWord c = true) : isBlank c = false := by
  rw [← Bool.not_eq_true]
  intro hb
  rw [isWord_eq_false_of_isBlank hb] at h
  exact absurd h (by decide)

end HdlReview.Text
