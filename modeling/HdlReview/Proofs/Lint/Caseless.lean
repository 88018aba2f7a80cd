import HdlReview.Proofs.Lint.Review
import HdlReview.Proofs.Scan.Words
import HdlReview.Proofs.Text.Letters

/-!
# Reviews without regard to case

In a language without case a review depends on a source only up to the case of its letters. The
keywords are compared through folding, and folding keeps word characters, line feeds and lengths as
they are, so that a source and its folded form have the same review. What the rules for keywords
find can therefore be said through the whole words of the source and the forms of their letters.

## Main definitions

* `HasKeyword s k`: some whole word of `s` is the keyword `k` up to case
* `Report.Reports report rule`: some issue of a report comes from a rule

## Main results

* `contains_caselessWord_iff`: a keyword is found just if it is a whole word up to case
* `review_map_foldCase`: a source and its folded form have the same review
* `review_vhdl_caseless`: the review does not depend on case; when the keyword rules fire
-/

namespace HdlReview.Scan

open HdlReview.Text

/-- **A keyword in a source**: some whole word is the keyword up to case. -/
def HasKeyword (s : List Char) (k : String) : Prop :=
  ∃ w, WholeWord s w ∧ List.Forall₂ IsForm k.toList w

theorem isChoice_caseless_iff {k w : List Char} :
    isChoice true [k] w = true ↔ sameFolded w k = true := by
  simp [isChoice]

/-- **A keyword is found** without regard to case just if it is a whole word up to case. -/
theorem contains_caselessWord_iff {k : String} (hk : ∀ c ∈ k.toList, c.isLower = true)
    {s : List Char} : contains (.caselessWord k) s = true ↔ HasKeyword s k := by
  rw [Pattern.caselessWord, contains_word_iff]
  simp only [isChoice_caseless_iff, sameFolded_iff_forall₂ hk]
  rfl

theorem sameFolded_map_foldCase (w k : List Char) :
    sameFolded (w.map foldCase) k = sameFolded w k := by
  rw [sameFolded, sameFolded, List.map_map]
  simp only [Function.comp_def, foldCase_foldCase]

/-- Folding a source neither makes nor hides a keyword. -/
theorem contains_caselessWord_map_foldCase (k : String) (s : List Char) :
    contains (.caselessWord k) (s.map foldCase) = contains (.caselessWord k) s := by
  rw [Bool.eq_iff_iff, Pattern.caselessWord, contains_word_iff, contains_word_iff]
  simp only [isChoice_caseless_iff, wholeWord_map_iff isWord_foldCase]
  -- the whole words of the folded source are the folded whole words, in the same places
  constructor
  · rintro ⟨_, ⟨w, hw, rfl⟩, hk⟩
    exact ⟨w, hw, by rwa [sameFolded_map_foldCase] at hk⟩
  · rintro ⟨w, hw, hk⟩
    exact ⟨w.map foldCase, ⟨w, hw, rfl⟩, by rwa [sameFolded_map_foldCase]⟩

end HdlReview.Scan

namespace HdlReview.Lint

open HdlReview.Scan HdlReview.Text

/-! ## Findings of a folded source -/

theorem longLineFindings_map_foldCase (s : List Char) :
    longLineFindings (s.map foldCase) = longLineFindings s := by
  simp only [longLineFindings, lines_map foldCase_beq_newline, List.countP_map, Function.comp_def,
    List.length_map]

theorem Rule.findings_map_foldCase {r : Rule} (hr : r ∈ rulesFor .vhdl) (s : List Char) :
    r.findings (s.map foldCase) = r.findings s := by
  obtain rfl | rfl | rfl : r = .vhdlLatchInference ∨ r = .mixedVariableSignal ∨ r = .longLines := by
    simpa [rulesFor, commonRules] using hr
  · simp only [findings, processFindings, contains_caselessWord_map_foldCase]
  · simp only [findings, mixedFindings, contains_caselessWord_map_foldCase]
  · exact longLineFindings_map_foldCase s

/-- A report is determined by its language and its issues. -/
theorem review_eq_of_issues_eq {l : Language} {s t : List Char}
    (h : (review l t).issues = (review l s).issues) : review l t = review l s := by
  have hreport : ∀ u, review l u = ⟨(review l u).issues.length, (review l u).issues,
      summarize (review l u).issues, some l, (review l u).rulesExecuted⟩ := fun _ => rfl
  rw [hreport t, hreport s, h, rulesExecuted_review, rulesExecuted_review]

/-- **A source and its folded form** have the same review. -/
theorem review_map_foldCase (s : List Char) : review .vhdl (s.map foldCase) = review .vhdl s := by
  apply review_eq_of_issues_eq
  rw [issues_review, issues_review]
  refine List.flatMap_congr fun r hr => ?_
  rw [Rule.check, Rule.check, r.findings_map_foldCase hr]

/-! ## When a rule fires -/

/-- **A rule fires**: some issue of a report comes from it. -/
def Report.Reports (report : Report) (rule : Rule) : Prop :=
  ∃ i ∈ report.issues, i.ruleId = rule.id

theorem reports_review_iff {l : Language} {r : Rule} (hr : r ∈ rulesFor l) (s : List Char) :
    (review l s).Reports r ↔ r.findings s ≠ [] := by
  have hf : (review l s).Reports r ↔
      (review l s).issues.filter (fun i => i.ruleId = r.id) ≠ [] := by
    rw [Report.Reports, ne_eq, List.filter_eq_nil_iff]
    simp
  rw [hf, filter_ruleId_review s hr, Rule.check, ne_eq, List.map_eq_nil_iff]

/-- **The review of a source without case.** Sources that differ only in the case of ASCII letters
have the same review. The latch rule fires just if the source has the keyword `process` and not the
keyword `else`, and the rule on mixed assignments just if it has both `variable` and `signal`, where
a keyword is a whole word up to case. -/
theorem review_vhdl_caseless (s : List Char) :
    (∀ t, List.Forall₂ SameLetter s t → review .vhdl t = review .vhdl s) ∧
    ((review .vhdl s).Reports .vhdlLatchInference ↔
      HasKeyword s "process" ∧ ¬ HasKeyword s "else") ∧
    ((review .vhdl s).Reports .mixedVariableSignal ↔
      HasKeyword s "variable" ∧ HasKeyword s "signal") := by
  -- the keywords are written in small letters, so each is found just if it is a whole word
  have hfound : ∀ k ∈ ["process", "else", "variable", "signal"],
      contains (.caselessWord k) s = true ↔ HasKeyword s k := fun k hk =>
    have hlower : ∀ k ∈ ["process", "else", "variable", "signal"],
      k.toList.all Char.isLower = true := by decide
    contains_caselessWord_iff (List.all_eq_true.1 (hlower k hk))
  refine ⟨fun t ht => ?_, ?_, ?_⟩
  · -- both sources have the same folded form
    rw [← review_map_foldCase t, map_foldCase_eq ht, review_map_foldCase]
  · rw [reports_review_iff (by decide), Rule.findings, processFindings, findingIf_ne_nil_iff,
      Bool.and_eq_true, Bool.not_eq_true', ← Bool.not_eq_true, hfound "process" (by decide),
      hfound "else" (by decide)]
  · rw [reports_review_iff (by decide), Rule.findings, mixedFindings, findingIf_ne_nil_iff,
      Bool.and_eq_true, hfound "variable" (by decide), hfound "signal" (by decide)]

theorem review_vhdl_caseless_mixed :
    List.Forall₂ SameLetter "PROCEſS begin eLsif".toList "proCEſs BEGIN ElSif".toList ∧
    (review .vhdl "PROCEſS begin eLsif".toList).issues.map (·.ruleId) = ["vhdl_latch_inference"] ∧
    review .vhdl "proCEſs BEGIN ElSif".toList = review .vhdl "PROCEſS begin eLsif".toList := by
  have h : List.Forall₂ SameLetter "PROCEſS begin eLsif".toList "proCEſs BEGIN ElSif".toList := by
    decide
  exact ⟨h, by decide +kernel, (review_vhdl_caseless _).1 _ h⟩

end HdlReview.Lint
