import HdlReview.Lint.Issue
import HdlReview.Proofs.Validation.Accepted
import HdlReview.Proofs.Validation.RoundTrip

/-!
# Issues and reports read back

An issue can be read back from its data when its line is at least one and its texts are not empty,
and a report when its issues can and its total is their number. These are the conditions that the
readers check, after they have taken numbers from texts and put in defaults: all that they accept
meets them.

## Main definitions

* `Issue.Valid`, `Report.Valid`: what the readers ask of issues and reports

## Main results

* `Issue.read_toValue`, `Report.read_toValue`: valid issues and reports are read back as they were
* `Issue.ensures_valid`, `Report.ensures_valid`: what the readers accept is valid
-/

namespace HdlReview.Lint

open HdlReview.Json HdlReview.Validation

/-- A line of at least one and texts that are not empty. -/
structure Issue.Valid (i : Issue) : Prop where
  line : ∀ n, i.line = some n → 1 ≤ n
  message : i.message ≠ ""
  suggestion : i.suggestion ≠ ""

/-- Valid issues, and their number as the total. -/
structure Report.Valid (r : Report) : Prop where
  issues : ∀ i ∈ r.issues, i.Valid
  total : r.totalIssues = r.issues.length

theorem member_kind (k : Kind) : member Kind.members (.str k.name) = .ok k :=
  member_of_get? (by cases k <;> rfl)

theorem member_severity (x : Severity) : member Severity.members (.str x.name) = .ok x :=
  member_of_get? (by cases x <;> rfl)

theorem member_language (l : Language) : member Language.members (.str l.name) = .ok l :=
  member_of_get? (by cases l <;> rfl)

/-- **Issues are read back** from their data. -/
theorem Issue.read_toValue {i : Issue} (h : i.Valid) : Issue.read i.toValue = .ok i := by
  have hline : nullable (atLeast 1) (.ofOption (fun (n : Nat) => .int n) i.line) = .ok i.line :=
    nullable_ofOption (fun _ => nofun) fun n hn => atLeast_int (h.line n hn)
  simp only [Issue.toValue, Issue.read, record, Issue.readFields]
  -- field by field, in the order in which the reader asks for them
  rw [required_of_get? rfl (member_kind i.kind), required_of_get? rfl (member_severity i.severity),
    optional_of_get? rfl hline, required_of_get? rfl (nonEmptyText_str h.message),
    required_of_get? rfl (nonEmptyText_str h.suggestion), optional_of_get? (a := i.ruleId) rfl rfl]
  rfl

/-- **Reports are read back** from their data. -/
theorem Report.read_toValue {r : Report} (h : r.Valid) : Report.read r.toValue = .ok r := by
  have hissues : listOf Issue.read (.list (r.issues.map Issue.toValue)) = .ok r.issues :=
    listOf_map fun i hi => Issue.read_toValue (h.issues i hi)
  have hlanguage : nullable (member Language.members)
      (.ofOption (fun l => .str l.name) r.language) = .ok r.language :=
    nullable_ofOption (fun _ => nofun) fun l _ => member_language l
  have hfields : Report.readFields
      [("totalIssues", .int r.totalIssues), ("issues", .list (r.issues.map Issue.toValue)),
        ("summary", .str r.summary), ("language", .ofOption (fun l => .str l.name) r.language),
        ("rules_executed", .texts r.rulesExecuted)] = .ok r := by
    rw [Report.readFields, optional_of_get? rfl (atLeast_int (Nat.zero_le r.totalIssues)),
      optional_of_get? rfl hissues, optional_of_get? (a := r.summary) rfl rfl,
      optional_of_get? rfl hlanguage, optional_of_get? rfl (listOf_texts r.rulesExecuted)]
    rfl
  -- the one check across fields is left
  simp only [Report.toValue, Report.read, record, Report.readConsistent, hfields]
  exact if_pos h.total

/-- **Every issue that is accepted is valid.** -/
theorem Issue.ensures_valid : Ensures Issue.read Issue.Valid := by
  apply ensures_record
  intro fields i h
  -- the fields come off one by one, the last one first
  obtain ⟨_, ruleId, toSuggestion, -, rfl⟩ := Checked.ap_eq_ok_iff.1 h
  obtain ⟨_, suggestion, toMessage, hsuggestion, rfl⟩ := Checked.ap_eq_ok_iff.1 toSuggestion
  obtain ⟨_, message, toLine, hmessage, rfl⟩ := Checked.ap_eq_ok_iff.1 toMessage
  obtain ⟨_, line, toSeverity, hline, rfl⟩ := Checked.ap_eq_ok_iff.1 toLine
  obtain ⟨_, severity, toKind, -, rfl⟩ := Checked.ap_eq_ok_iff.1 toSeverity
  obtain ⟨_, kind, make, -, rfl⟩ := Checked.ap_eq_ok_iff.1 toKind
  cases make
  constructor
  · exact (ensures_atLeast 1).nullable.optional (by simp) hline
  · exact ensures_nonEmptyText.required hmessage
  · exact ensures_nonEmptyText.required hsuggestion

/-- The issues of a report are valid before its total is looked at. -/
theorem Report.valid_issues_of_readFields {fields : Fields} {r : Report}
    (h : Report.readFields fields = .ok r) : ∀ i ∈ r.issues, i.Valid := by
  obtain ⟨_, rules, toLanguage, -, rfl⟩ := Checked.ap_eq_ok_iff.1 h
  obtain ⟨_, language, toSummary, -, rfl⟩ := Checked.ap_eq_ok_iff.1 toLanguage
  obtain ⟨_, summary, toIssues, -, rfl⟩ := Checked.ap_eq_ok_iff.1 toSummary
  obtain ⟨_, issues, toTotal, hissues, rfl⟩ := Checked.ap_eq_ok_iff.1 toIssues
  obtain ⟨_, total, make, -, rfl⟩ := Checked.ap_eq_ok_iff.1 toTotal
  cases make
  exact Issue.ensures_valid.listOf.optional (by simp) hissues

/-- **Every report that is accepted is valid.** -/
theorem Report.ensures_valid : Ensures Report.read Report.Valid := by
  apply ensures_record
  intro fields r h
  unfold Report.readConsistent at h
  split at h
  · next hfields =>
    split at h
    · next htotal =>
      cases h
      exact ⟨Report.valid_issues_of_readFields hfields, htotal⟩
    · cases h
  · cases h

end HdlReview.Lint
