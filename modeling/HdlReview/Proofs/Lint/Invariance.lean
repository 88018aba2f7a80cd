import HdlReview.Proofs.Lint.Correspondence
import HdlReview.Proofs.Lint.Review
import HdlReview.Proofs.Scan.Sources

/-!
# What a review does not depend on

A review depends neither on the names of signals nor on the blanks within lines. Renaming the
identifiers of a source renames them in the issues, and writing its gaps anew changes no issue at
all. Long lines are left out of account: their number depends on both.

## Main definitions

* `Report.otherIssues`: the issues that are not about long lines
* `RenamedIssue r i i'`: the issue `i'` is `i` with the names in its message renamed

## Main results

* `review_onSource`: the review of a renamed source
* `review_respaced`: the review of a respaced source
-/

namespace HdlReview.Lint

open HdlReview.Scan HdlReview.Text

/-- The issues of a report that are not about long lines. -/
def Report.otherIssues (report : Report) : List Issue :=
  report.issues.filter fun i => i.ruleId ≠ Rule.longLines.id

theorem Rule.id_ne_of_ne_longLines {rule : Rule} (h : rule ≠ .longLines) :
    rule.id ≠ Rule.longLines.id := by
  cases rule with
  | longLines => exact absurd rfl h
  | _ => decide

theorem otherIssues_review (l : Language) (s : List Char) :
    (review l s).otherIssues =
      ((rulesFor l).filter (· ≠ .longLines)).flatMap fun rule => rule.check s := by
  rw [Report.otherIssues, issues_review]
  induction rulesFor l with
  | nil => rfl
  | cons rule rules ih =>
    rw [List.flatMap_cons, List.filter_append, ih]
    by_cases h : rule = .longLines
    · have hnone : (rule.check s).filter (fun i => i.ruleId ≠ Rule.longLines.id) = [] := by
        refine List.filter_eq_nil_iff.2 fun i hi => ?_
        simp [rule.ruleId_of_mem_check s hi, h]
      rw [hnone, List.nil_append, List.filter_cons_of_neg (by simpa using h)]
    · have hall : (rule.check s).filter (fun i => i.ruleId ≠ Rule.longLines.id) = rule.check s := by
        refine List.filter_eq_self.2 fun i hi => ?_
        simp [rule.ruleId_of_mem_check s hi, Rule.id_ne_of_ne_longLines h]
      rw [hall, List.filter_cons_of_pos (by simpa using h), List.flatMap_cons]

/-! ## Names -/

/-- **An issue with the names in its message renamed**; all else is the same. -/
def RenamedIssue (r : Renaming) (i i' : Issue) : Prop :=
  ∃ rule f f', Renamed r rule f f' ∧ i = rule.issue f ∧ i' = rule.issue f'

theorem check_rel {r : Renaming} {rule : Rule} {s t : List Char}
    (hr : rule ∈ rulesFor .verilog) (hl : rule ≠ .longLines) (h : Corresponds r s t) :
    List.Forall₂ (RenamedIssue r) (rule.check s) (rule.check t) := by
  rw [Rule.check, Rule.check, List.forall₂_map_left_iff, List.forall₂_map_right_iff]
  exact (rule.findings_rel hr hl h).imp fun f f' hf => ⟨rule, f, f', hf, rfl, rfl⟩

/-- **The review of a renamed source** has the same issues in the same order, with the same lines
and with the names in their messages renamed. -/
theorem review_onSource (r : Renaming) (s : List Char) (hs : ∀ c ∈ s, c.toNat < 0x80) :
    List.Forall₂ (RenamedIssue r) (review .verilog s).otherIssues
      (review .verilog (r.onSource s)).otherIssues := by
  rw [otherIssues_review, otherIssues_review]
  -- the same rules are asked in the same order, so it is enough to look at one rule
  refine List.rel_flatten (List.forall₂_map_left_iff.2 (List.forall₂_map_right_iff.2 ?_))
  refine List.forall₂_same.2 fun rule hrule => ?_
  obtain ⟨hr, hl⟩ := List.mem_filter.1 hrule
  exact check_rel hr (of_decide_eq_true hl) (corresponds_onSource r hs)

/-- The renaming that exchanges `q` and `sel`. -/
def swapTargets : Renaming :=
  .swap "q".toList "sel".toList (by decide) (by decide) (by decide) (by decide)

theorem review_onSource_swapTargets :
    (∀ c ∈ "always @(a) q = sel; q = a;".toList, c.toNat < 0x80) ∧
    swapTargets.onSource "always @(a) q = sel; q = a;".toList =
      "always @(a) sel = q; sel = a;".toList ∧
    (review .verilog "always @(a) q = sel; q = a;".toList).otherIssues.map
        (fun i => (i.ruleId, i.line)) =
      [("incomplete_sensitivity", some 1), ("multiple_assignments", none)] ∧
    List.Forall₂ (RenamedIssue swapTargets)
      (review .verilog "always @(a) q = sel; q = a;".toList).otherIssues
      (review .verilog (swapTargets.onSource "always @(a) q = sel; q = a;".toList)).otherIssues := by
  have hs : ∀ c ∈ "always @(a) q = sel; q = a;".toList, c.toNat < 0x80 := by
    have hall : "always @(a) q = sel; q = a;".toList.all (fun c => c.toNat < 0x80) = true := by
      decide
    simpa only [List.all_eq_true, decide_eq_true_eq] using hall
  exact ⟨hs, by decide, by decide +kernel, review_onSource swapTargets _ hs⟩

/-! ## Gaps -/

/-- **The review of a respaced source** has the same issues. -/
theorem review_respaced {s t : List Char} (h : Respaced s t) (l : Language) :
    (review l t).otherIssues = (review l s).otherIssues := by
  rw [otherIssues_review, otherIssues_review]
  refine List.flatMap_congr fun rule hrule => ?_
  rw [Rule.check, Rule.check,
    rule.findings_eq (of_decide_eq_true (List.mem_filter.1 hrule).2) h.corresponds]

theorem review_respaced_tab :
    Respaced ['i', 'f', ' ', ' ', 'x'] ['i', 'f', '\t', 'x'] ∧
    (review .verilog ['i', 'f', ' ', ' ', 'x']).otherIssues.map (fun i => (i.ruleId, i.line)) =
      [("latch_inference", some 1)] ∧
    (review .verilog ['i', 'f', '\t', 'x']).otherIssues =
      (review .verilog ['i', 'f', ' ', ' ', 'x']).otherIssues := by
  have hg : IsRun isGap [' ', ' '] := by decide
  have hg' : IsRun isGap ['\t'] := by decide
  have h : Respaced ['i', 'f', ' ', ' ', 'x'] ['i', 'f', '\t', 'x'] :=
    .keep rfl (.keep rfl (.gap hg hg' (.keep rfl .nil)))
  exact ⟨h, by decide +kernel, review_respaced h .verilog⟩

end HdlReview.Lint
