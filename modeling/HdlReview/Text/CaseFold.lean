/-!
# Comparing keywords without case

Keywords of a language without case are compared through a folding of characters: ASCII capitals
go to small letters, and so do the four characters whose small or capital form is an ASCII letter:
the long s, the dotted capital i, the dotless i and the kelvin sign.

## Main definitions

* `foldCase c`: the folded character
* `sameFolded v w`: `v` and `w` are equal up to folding
-/

namespace HdlReview.Text

/-- The representative of a character among those that differ only in case. -/
def foldCase (c : Char) : Char :=
  match c with
  | '\u017f' => 's'
  | '\u0130' => 'i'
  | '\u0131' => 'i'
  | '\u212a' => 'k'
  | c => c.toLower

/-- Equality of texts up to case. -/
def sameFolded (v w : List Char) : Bool :=
  v.map foldCase == w.map foldCase

theorem sameFolded_eq_true_iff {v w : List Char} :
    sameFolded v w = true ↔ v.map foldCase = w.map foldCase := by
  simp [sameFolded]

end HdlReview.Text
