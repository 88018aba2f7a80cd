import HdlReview.Proofs.Advice.RoundTrip
import HdlReview.Proofs.Lint.Isolation
import HdlReview.Proofs.Lint.Review
import HdlReview.Tools.Registry

/-!
# What comes of a call

A call by name has one of three outcomes. There is no tool of that name, or the arguments are no
request to the tool, or there is a result. A request that was read never fails later, although the
operations look again at what they are given: they know every language, every violation and every
signal type that a request can name, and every double has a period. A result meets the conditions
under which records of its kind are read.

## Main definitions

* `Gives call result`: an operation gives a result for the plain values of a request
* `Tool.readResult`: the reader of the results of a tool

## Main results

* `Tool.ofName?_eq_some_iff`, `Tool.ofName?_eq_none_iff`: which names are those of tools
* `gives_run`: every request has a result
* `readResult_run`: results are read back from their data
* `execute_outcomes`: the three outcomes of a call
-/

namespace HdlReview.Tools

open HdlReview.Json HdlReview.Validation HdlReview.Lint HdlReview.Advice

variable {name : String} {t : Tool}

/-! ## Names of tools -/

theorem Tool.ofName?_eq_some_iff : Tool.ofName? name = some t ↔ t.name = name := by
  constructor
  · intro h
    have hfound := List.find?_some h
    exact of_decide_eq_true hfound
  · rintro rfl
    cases t <;> decide

theorem Tool.ofName?_eq_none_iff : Tool.ofName? name = none ↔ ∀ t : Tool, t.name ≠ name := by
  simp only [Option.eq_none_iff_forall_ne_some, ne_eq, Tool.ofName?_eq_some_iff]

/-! ## Requests that were read -/

theorem Call.of_eq_ok {α : Type} {make : α → Call} {c : Checked α} {call : Call}
    (h : Call.of make c = .ok call) : ∃ a, c = .ok a ∧ call = make a := by
  cases c with
  | ok a => exact ⟨a, rfl, (Except.ok.inj h).symm⟩
  | error fs => exact absurd h nofun

theorem Call.of_eq_error {α : Type} {make : α → Call} {c : Checked α} {fs : List Fault}
    (h : Call.of make c = .error fs) : c = .error fs := by
  cases c with
  | ok a => exact absurd h nofun
  | error gs => exact congrArg Except.error (Except.error.inj h)

/-! ## Results -/

/-- **An operation gives a result** for the plain values of a request: it turns none of them down,
and the period of a frequency divides by no zero. -/
inductive Gives : Call → Result → Prop
  | review {q : ReviewRequest} {report : Report} {records : List Log.Record} :
    Engine.standard.runNamed (.str q.language.name) q.code.toList = (.ok report, records) →
    Gives (.review q) (.review report)
  | timing {q : TimingRequest} {g : TimingGuidance} :
    inquireTiming (.str q.issue) (.ofOption .float q.clockFrequency) (.str q.violation.name) =
      .ok g →
    (∀ x, q.clockFrequency = some x → periodByDivision x = .ok (Frequency.float x).period) →
    Gives (.timing q) (.timing g)
  | crossing {q : CrossingRequest} {g : CrossingGuidance} :
    inquireCrossing (.str q.description) (.ofOption (fun t => .str t.name) q.signalType) = .ok g →
    Gives (.crossing q) (.crossing g)

/-- **Every request has a result**, the one of its call. -/
theorem gives_run (call : Call) : Gives call call.run.1 := by
  cases call with
  | review q =>
    exact .review (Engine.standard.runNamed_of_run q.language _ (run_standard _ q.language))
  | timing q =>
    apply Gives.timing
    · exact inquireTiming_of_names q.issue q.clockFrequency q.violation
    · intro x _
      exact periodByDivision_eq_ok x
  | crossing q => exact .crossing (inquireCrossing_of_names q.description q.signalType)

/-- The result of a tool that a data value holds. -/
def Tool.readResult (t : Tool) (v : Value) : Checked Result :=
  match t with
  | review => (Report.read v).map .review
  | timing => (TimingGuidance.read v).map .timing
  | crossing => (CrossingGuidance.read v).map .crossing

/-- **Results are read back** from their data. -/
theorem readResult_run {arguments : Value} {call : Call} (h : t.readCall arguments = .ok call) :
    t.readResult call.run.1.toValue = .ok call.run.1 := by
  cases t with
  | review =>
    obtain ⟨q, -, rfl⟩ := Call.of_eq_ok h
    have hread : Report.read (review q.language q.code.toList).toValue = _ :=
      Report.read_toValue (valid_review q.code.toList q.language)
    exact congrArg (Except.map Result.review) hread
  | timing =>
    obtain ⟨q, -, rfl⟩ := Call.of_eq_ok h
    exact congrArg (Except.map Result.timing) (TimingGuidance.read_toValue _)
  | crossing =>
    obtain ⟨q, -, rfl⟩ := Call.of_eq_ok h
    exact congrArg (Except.map Result.crossing) (CrossingGuidance.read_toValue _)

/-! ## Calls by name -/

section Execute

variable {arguments : Value}

theorem execute_of_unknown (h : ∀ t : Tool, t.name ≠ name) :
    execute name arguments = .error (.unknownTool (.str name)) := by
  rw [execute, Tool.ofName?_eq_none_iff.2 h]

theorem execute_of_rejected {fs : List Fault} (hn : t.name = name)
    (h : t.readCall arguments = .error fs) :
    execute name arguments = .error (.rejected ⟨t.parameters.title, fs⟩) := by
  rw [execute, Tool.ofName?_eq_some_iff.2 hn]
  simp only [h]

theorem execute_of_read {call : Call} (hn : t.name = name) (h : t.readCall arguments = .ok call) :
    execute name arguments = .ok (call.run.1, callRecord name :: call.run.2) := by
  rw [execute, Tool.ofName?_eq_some_iff.2 hn]
  simp only [h]

/-- A call is to no tool, or its arguments are rejected, or they are read. -/
theorem execute_cases (name : String) (arguments : Value) :
    (∀ t : Tool, t.name ≠ name) ∨
      (∃ t fs, Tool.name t = name ∧ t.readCall arguments = .error fs) ∨
      ∃ t call, Tool.name t = name ∧ t.readCall arguments = .ok call := by
  cases hn : Tool.ofName? name with
  | none => exact .inl (Tool.ofName?_eq_none_iff.1 hn)
  | some t =>
    have hname := Tool.ofName?_eq_some_iff.1 hn
    cases hr : t.readCall arguments with
    | error fs => exact .inr (.inl ⟨t, fs, hname, hr⟩)
    | ok call => exact .inr (.inr ⟨t, call, hname, hr⟩)

end Execute

/-- **The three outcomes of a call.** A call is to an unknown tool just if no tool has the name,
whatever the arguments. It is rejected, under the title of the tool's requests and with their
faults, just if a tool has the name and does not read the arguments. In all other cases there is a
result. It is what the operation gives for the plain values of the request, none of which is turned
down, and it is read back from its own data. -/
theorem execute_outcomes (name : String) (arguments : Value) :
    (execute name arguments = .error (.unknownTool (.str name)) ↔ ∀ t : Tool, t.name ≠ name) ∧
      (∀ r : Rejection, execute name arguments = .error (.rejected r) ↔
        ∃ t fs, Tool.name t = name ∧ t.readCall arguments = .error fs ∧
          r = ⟨t.parameters.title, fs⟩) ∧
      ∀ t : Tool, t.name = name → (∀ fs, t.readCall arguments ≠ .error fs) →
        ∃ call result records, t.readCall arguments = .ok call ∧
          execute name arguments = .ok (result, records) ∧ Gives call result ∧
          t.readResult result.toValue = .ok result := by
  refine ⟨⟨fun h => ?_, execute_of_unknown⟩, fun r => ⟨fun h => ?_, ?_⟩, fun t hn hread => ?_⟩
  · -- a tool of the name would reject the arguments or give a result
    rcases execute_cases name arguments with hno | ⟨t, fs, hn, hr⟩ | ⟨t, call, hn, hr⟩
    · exact hno
    · rw [execute_of_rejected hn hr] at h
      cases h
    · rw [execute_of_read hn hr] at h
      cases h
  · rcases execute_cases name arguments with hno | ⟨t, fs, hn, hr⟩ | ⟨t, call, hn, hr⟩
    · rw [execute_of_unknown hno] at h
      cases h
    · rw [execute_of_rejected hn hr] at h
      cases h
      exact ⟨t, fs, hn, hr, rfl⟩
    · rw [execute_of_read hn hr] at h
      cases h
  · rintro ⟨t, fs, hn, hr, rfl⟩
    exact execute_of_rejected hn hr
  · cases hr : t.readCall arguments with
    | error fs => exact absurd hr (hread fs)
    | ok call => exact ⟨call, _, _, rfl, execute_of_read hn hr, gives_run call, readResult_run hr⟩

/-- Arguments on timing with a frequency of negative zero. -/
def zeroFrequency : Value :=
  .obj [("issue", .str "slow"), ("clockFrequency", .float (.zero true)),
    ("violationType", .str "both")]

theorem execute_outcomes_zeroFrequency :
    (∃ call result records, Tool.timing.readCall zeroFrequency = .ok call ∧
      execute "timingAnalysis" zeroFrequency = .ok (result, records) ∧ Gives call result ∧
      Tool.timing.readResult result.toValue = .ok result) ∧
    (∃ r : Rejection, r.record = "CDCRequest" ∧
      execute "detectCDCIssues" (.list []) = .error (.rejected r)) ∧
    (∀ t : Tool, t.name ≠ "lint") ∧
    execute "lint" zeroFrequency = .error (.unknownTool (.str "lint")) := by
  have hunknown : ∀ t : Tool, t.name ≠ "lint" := by
    intro t
    cases t <;> decide
  refine ⟨?_, ?_, hunknown, (execute_outcomes "lint" zeroFrequency).1.2 hunknown⟩
  · refine (execute_outcomes "timingAnalysis" zeroFrequency).2.2 .timing rfl ?_
    intro fs hfs
    cases hfs
  · refine ⟨⟨"CDCRequest", [⟨.notRecord "CDCRequest", [], .list []⟩]⟩, rfl, ?_⟩
    exact ((execute_outcomes "detectCDCIssues" (.list [])).2.1 _).2 ⟨.crossing, _, rfl, rfl, rfl⟩

end HdlReview.Tools
