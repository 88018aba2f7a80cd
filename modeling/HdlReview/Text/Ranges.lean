/-!
# Sets of code points

A set of code points is written as a list of closed ranges. The tables of this folder name the
character properties that the review depends on; each holds the code points from `0x80` on, the
ones below being decided by a formula.

## Main definitions

* `inRanges ranges n`: `n` lies in one of the ranges
-/

namespace HdlReview.Text

/-- Whether `n` lies in one of the closed ranges. -/
def inRanges (ranges : List (Nat × Nat)) (n : Nat) : Bool :=
  ranges.any fun r => r.1 ≤ n && n ≤ r.2

theorem inRanges_eq_true_iff {ranges : List (Nat × Nat)} {n : Nat} :
    inRanges ranges n = true ↔ ∃ r ∈ ranges, r.1 ≤ n ∧ n ≤ r.2 := by
  simp [inRanges]

end HdlReview.Text
