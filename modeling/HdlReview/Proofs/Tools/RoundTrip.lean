import HdlReview.Proofs.Advice.RoundTrip
import HdlReview.Proofs.Json.Finite
import HdlReview.Proofs.Validation.RoundTrip
import HdlReview.Tools.Registry

/-!
# Requests and descriptions read back

Each request is read back from its own data. A description is not always handed out as it is: in its
parameters null stands for the numbers that are not finite, and parameters with too many levels are
not handed out at all. Once it has been handed out it stays as it is.

## Main definitions

* `Descriptor.printable d`: the description with finite numbers only

## Main results

* `ReviewRequest.read_toValue`, `TimingRequest.read_toValue`, `CrossingRequest.read_toValue`
* `Descriptor.dump_eq_ok_iff`, `Descriptor.dump_eq_error_iff`: which descriptions are handed out
* `Descriptor.dump_printable`: what was handed out is handed out again as it is
-/

namespace HdlReview.Tools

open HdlReview.Json HdlReview.Validation HdlReview.Lint HdlReview.Advice

/-! ## Requests -/

theorem listed_language (l : Language) : listed Language.members (.str l.name) = .ok l :=
  listed_of_get? (by cases l <;> rfl)

theorem ReviewRequest.read_toValue (r : ReviewRequest) : ReviewRequest.read r.toValue = .ok r := by
  simp only [ReviewRequest.toValue, ReviewRequest.read, record, ReviewRequest.readFields]
  rw [required_of_get? (a := r.code) rfl rfl, required_of_get? rfl (listed_language r.language)]
  rfl

theorem TimingRequest.read_toValue (r : TimingRequest) : TimingRequest.read r.toValue = .ok r := by
  simp only [TimingRequest.toValue, TimingRequest.read, record, TimingRequest.readFields]
  rw [required_of_get? (a := r.issue) rfl rfl,
    optional_of_get? rfl (nullable_number r.clockFrequency),
    optional_of_get? rfl (listed_violation r.violation)]
  rfl

theorem CrossingRequest.read_toValue (r : CrossingRequest) :
    CrossingRequest.read r.toValue = .ok r := by
  simp only [CrossingRequest.toValue, CrossingRequest.read, record, CrossingRequest.readFields]
  rw [required_of_get? (a := r.description) rfl rfl,
    optional_of_get? rfl (nullable_signalType r.signalType)]
  rfl

/-! ## Descriptions -/

namespace Descriptor

/-- A description with null in place of the numbers that are not finite. -/
def printable (d : Descriptor) : Descriptor :=
  { d with parameters := fieldsOnlyFinite d.parameters }

theorem read_toValue (d : Descriptor) : read d.toValue = .ok d := by
  simp only [toValue, read, record, readFields]
  rw [required_of_get? (a := d.name) rfl rfl, required_of_get? (a := d.description) rfl rfl,
    optional_of_get? (a := d.parameters) rfl rfl]
  rfl

theorem dump_eq_ok_iff {d : Descriptor} {w : Value} :
    d.dump = .ok w ↔ fieldsLevels d.parameters ≤ levelLimit ∧ d.printable.toValue = w := by
  unfold dump
  split
  · next hdeep => simp [Nat.not_le_of_lt hdeep]
  · next hshallow => simp [Nat.le_of_not_lt hshallow, printable]

theorem dump_eq_error_iff {d : Descriptor} {e : DumpError} :
    d.dump = .error e ↔ levelLimit < fieldsLevels d.parameters := by
  unfold dump
  split
  · next hdeep => simp [hdeep]
  · next hshallow => simp [hshallow]

/-- **What was handed out is handed out again** as it is: nothing is left to replace, and it has no
more levels than before. -/
theorem dump_printable {d : Descriptor} (h : fieldsLevels d.parameters ≤ levelLimit) :
    d.printable.dump = .ok d.printable.toValue := by
  refine dump_eq_ok_iff.2 ⟨?_, ?_⟩
  · unfold printable
    rw [fieldsLevels_fieldsOnlyFinite]
    exact h
  · simp only [printable, fieldsOnlyFinite_fieldsOnlyFinite]

end Descriptor

end HdlReview.Tools
