import HdlReview.Advice.Inquiry
import HdlReview.Proofs.Validation.RoundTrip

/-!
# Advice read back, and advice asked for in plain values

Advice of both kinds is read back from its own data, whatever the frequency in it. Both kinds can
also be asked for in plain values, and then the names of the types are looked at again. A violation
or a signal type that was read before is never turned down there, and no double is turned down as a
frequency: a zero has a period of its own, so that nothing is ever divided by it.

## Main definitions

* `dividing k x`: the quotient of `k` by a double, or the error of a division by zero
* `periodByDivision x`: the period with a division that can fail

## Main results

* `TimingGuidance.read_toValue`, `CrossingGuidance.read_toValue`: advice is read back as it was
* `periodByDivision_eq_ok`: the period of a double never divides by zero
* `inquireTiming_of_names`, `inquireCrossing_of_names`: plain values that are not turned down
-/

namespace HdlReview.Advice

open HdlReview.Json HdlReview.Validation HdlReview.Decimal

/-! ## Names -/

theorem listed_violation (v : Violation) : listed Violation.members (.str v.name) = .ok v :=
  listed_of_get? (by cases v <;> rfl)

theorem listed_signalType (t : SignalType) : listed SignalType.members (.str t.name) = .ok t :=
  listed_of_get? (by cases t <;> rfl)

/-! ## Advice on timing -/

theorem TimingStep.read_toValue (s : TimingStep) : TimingStep.read s.toValue = .ok s := by
  have hcommands : nullable (listOf text) (.ofOption .texts s.commands) = .ok s.commands := by
    apply nullable_ofOption
    · intro commands
      exact nofun
    · intro commands _
      exact listOf_texts commands
  simp only [TimingStep.toValue, TimingStep.read, record, TimingStep.readFields]
  rw [required_of_get? (a := s.step) rfl rfl, required_of_get? (a := s.description) rfl rfl,
    optional_of_get? rfl hcommands]
  rfl

/-- **Advice on timing is read back** from its data, also with a frequency that is not finite. -/
theorem TimingGuidance.read_toValue (g : TimingGuidance) :
    TimingGuidance.read g.toValue = .ok g := by
  have hsteps : listOf TimingStep.read (.list (g.guidance.map TimingStep.toValue)) =
      .ok g.guidance := by
    apply listOf_map
    intro step _
    exact step.read_toValue
  simp only [TimingGuidance.toValue, TimingGuidance.read, record, TimingGuidance.readFields]
  -- field by field, in the order in which the reader asks for them
  rw [required_of_get? (a := g.issue) rfl rfl, optional_of_get? rfl (listed_violation g.violation),
    optional_of_get? rfl (nullable_number g.clockFrequency), optional_of_get? rfl hsteps,
    optional_of_get? rfl (listOf_texts g.generalTips)]
  rfl

/-! ## Advice on crossings -/

theorem Recommendation.read_toValue (r : Recommendation) :
    Recommendation.read r.toValue = .ok r := by
  simp only [Recommendation.toValue, Recommendation.read, record, Recommendation.readFields]
  rw [required_of_get? (a := r.scenario) rfl rfl, required_of_get? (a := r.solution) rfl rfl,
    optional_of_get? rfl (nullable_text r.sample)]
  rfl

theorem nullable_signalType (t : Option SignalType) :
    nullable (listed SignalType.members) (.ofOption (fun t => .str t.name) t) = .ok t := by
  apply nullable_ofOption
  · intro t
    exact nofun
  · intro t _
    exact listed_signalType t

/-- **Advice on a crossing is read back** from its data. -/
theorem CrossingGuidance.read_toValue (g : CrossingGuidance) :
    CrossingGuidance.read g.toValue = .ok g := by
  have hrecommendations : listOf Recommendation.read
      (.list (g.recommendations.map Recommendation.toValue)) = .ok g.recommendations := by
    apply listOf_map
    intro r _
    exact r.read_toValue
  simp only [CrossingGuidance.toValue, CrossingGuidance.read, record, CrossingGuidance.readFields]
  rw [required_of_get? (a := g.description) rfl rfl,
    optional_of_get? rfl (nullable_signalType g.signalType), optional_of_get? rfl hrecommendations,
    optional_of_get? rfl (listOf_texts g.generalGuidelines),
    optional_of_get? rfl (listOf_texts g.toolRecommendations)]
  rfl

/-! ## The period of a double -/

/-- What can go wrong in a division. -/
inductive DivisionError where
  /-- The divisor is zero. -/
  | byZero
deriving DecidableEq, Repr

/-- The quotient of a positive integer by a double, if the double is not zero. -/
def dividing (k : Nat) (x : Double) : Except DivisionError Double :=
  if x.isZero then .error .byZero else .ok (.quotient k x)

/-- The sign of a double. -/
def isNegative : Double → Bool
  | .nan => false
  | .inf negative => negative
  | .finite negative _ _ => negative

/-- **The period with a division that can fail**: infinite with the sign of the frequency if that is
a zero, and else a thousand divided by it. -/
def periodByDivision (x : Double) : Except DivisionError Double :=
  if x.isZero then .ok (.inf (isNegative x)) else dividing 1000 x

/-- **The period never divides by zero**, and it is the one that the advice shows. -/
theorem periodByDivision_eq_ok (x : Double) :
    periodByDivision x = .ok (Frequency.float x).period := by
  unfold periodByDivision dividing
  cases x with
  | nan => rfl
  | inf negative => rfl
  | finite negative m e =>
    -- the guard and the divisor look at the same mantissa
    cases m with
    | zero => rfl
    | succ m => rfl

/-! ## Plain values -/

theorem Violation.ofValue_name (v : Violation) : Violation.ofValue (.str v.name) = .ok v := by
  cases v <;> rfl

theorem SignalType.ofValue_ofOption (t : Option SignalType) :
    SignalType.ofValue (.ofOption (fun t => .str t.name) t) = .ok t := by
  rcases t with _ | t
  · rfl
  · cases t <;> rfl

/-- Every double can be written, so there are steps for it. -/
theorem timingSteps_float (clock : Option Double) (v : Violation) :
    timingSteps (clock.map .float) v =
      .ok (violationSteps v ++ (clock.map doubleStep).toList) := by
  cases clock with
  | none => exact congrArg Except.ok (List.append_nil _).symm
  | some x => rfl

/-- **Advice on timing in plain values** is given for every violation and every double. -/
theorem inquireTiming_of_names (issue : String) (clock : Option Double) (v : Violation) :
    inquireTiming (.str issue) (.ofOption .float clock) (.str v.name) =
      .ok (timingGuidance issue clock v) := by
  have hsteps := timingSteps_float clock v
  unfold inquireTiming
  rw [Violation.ofValue_name]
  dsimp only [bind, Except.bind]
  -- only a value that is no number is turned down, and the frequency is absent or a double
  cases clock with
  | none =>
    dsimp only [Value.ofOption, Option.map, pure, Except.pure] at hsteps ⊢
    rw [hsteps]
    rfl
  | some x =>
    dsimp only [Value.ofOption, Option.map, Frequency.ofValue, Functor.map, Except.map] at hsteps ⊢
    rw [hsteps]
    rfl

/-- **Advice on a crossing in plain values** is given for every signal type and for none. -/
theorem inquireCrossing_of_names (description : String) (t : Option SignalType) :
    inquireCrossing (.str description) (.ofOption (fun t => .str t.name) t) =
      .ok (crossingGuidance description t) := by
  unfold inquireCrossing
  rw [SignalType.ofValue_ofOption]
  rfl

end HdlReview.Advice
