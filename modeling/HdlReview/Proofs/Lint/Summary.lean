import HdlReview.Lint.Summary
import HdlReview.Proofs.Decimal.Numerals
import HdlReview.Proofs.Text.Pieces

/-!
# What the summary line tells

The summary line is a function of the numbers of errors, warnings and infos, and these numbers can
be read off it. The digits of a number end at the blank behind them, the word behind the blank names
the severity, and no part has a comma in it, so the parts can be taken apart. The number of issues
at the front is the sum of the numbers that follow.

## Main definitions

* `printedCounts issues`: the severities that occur, with their numbers
* `countText c`, `summaryLine counts`: one part of the line, and the line

## Main results

* `summarize_eq`: the summary line of issues is that of their numbers
* `summaryLine_injective`: different numbers have different lines
* `summarize_exact`: when two lists of issues have the same summary line
-/

namespace HdlReview.Lint

open HdlReview.Decimal HdlReview.Text

/-! ## Numbers of issues -/

/-- The number of issues of a severity, absent if no issue has it. -/
def printedCount? (issues : List Issue) (s : Severity) : Option (Severity × Nat) :=
  if severityCount s issues = 0 then none else some (s, severityCount s issues)

/-- The severities that occur, the gravest first, with the number of issues of each. -/
def printedCounts (issues : List Issue) : List (Severity × Nat) :=
  Severity.all.filterMap (printedCount? issues)

/-- The sum of the numbers of issues. -/
def totalCount : List (Severity × Nat) → Nat
  | [] => 0
  | c :: counts => c.2 + totalCount counts

variable {issues a b : List Issue}

theorem mem_printedCounts_iff {s : Severity} {n : Nat} :
    (s, n) ∈ printedCounts issues ↔ severityCount s issues = n ∧ n ≠ 0 := by
  have hall : s ∈ Severity.all := by cases s <;> simp [Severity.all]
  unfold printedCounts
  rw [List.mem_filterMap]
  constructor
  · rintro ⟨s', -, h⟩
    unfold printedCount? at h
    split at h
    · cases h
    · next hne =>
      cases h
      exact ⟨rfl, hne⟩
  · rintro ⟨rfl, hne⟩
    exact ⟨s, hall, if_neg hne⟩

/-- The numbers that are printed determine those that are not. -/
theorem printedCounts_eq_iff :
    printedCounts a = printedCounts b ↔ ∀ s, severityCount s a = severityCount s b := by
  constructor
  · intro h s
    have hmem (n : Nat) : severityCount s a = n ∧ n ≠ 0 ↔ severityCount s b = n ∧ n ≠ 0 := by
      rw [← mem_printedCounts_iff, ← mem_printedCounts_iff, h]
    by_cases hzero : severityCount s a = 0
    · by_contra hne
      have hb := (hmem _).2 ⟨rfl, fun hb => hne (hzero.trans hb.symm)⟩
      exact hne hb.1
    · exact ((hmem _).1 ⟨rfl, hzero⟩).1.symm
  · intro h
    have hpart : printedCount? a = printedCount? b := by
      funext s
      unfold printedCount?
      rw [h s]
    unfold printedCounts
    rw [hpart]

/-- Every issue has one of the severities. -/
theorem length_eq_add_severityCount (issues : List Issue) :
    issues.length = severityCount .error issues +
      (severityCount .warning issues + severityCount .info issues) := by
  induction issues with
  | nil => rfl
  | cons i issues ih =>
    unfold severityCount at ih ⊢
    rw [List.length_cons, List.countP_cons, List.countP_cons, List.countP_cons]
    cases i.severity <;> simp <;> omega

/-- A severity that is not printed adds nothing to the sum. -/
theorem totalCount_filterMap_cons (issues : List Issue) (s : Severity) (ss : List Severity) :
    totalCount ((s :: ss).filterMap (printedCount? issues)) =
      severityCount s issues + totalCount (ss.filterMap (printedCount? issues)) := by
  by_cases hzero : severityCount s issues = 0
  · have hnone : printedCount? issues s = none := if_pos hzero
    rw [List.filterMap_cons_none hnone, hzero, Nat.zero_add]
  · have hsome : printedCount? issues s = some (s, severityCount s issues) := if_neg hzero
    rw [List.filterMap_cons_some hsome, totalCount]

/-- **The sum of the printed numbers** is the number of issues. -/
theorem totalCount_printedCounts (issues : List Issue) :
    totalCount (printedCounts issues) = issues.length := by
  unfold printedCounts Severity.all
  rw [totalCount_filterMap_cons, totalCount_filterMap_cons, totalCount_filterMap_cons,
    length_eq_add_severityCount]
  rfl

theorem printedCounts_eq_nil_iff : printedCounts issues = [] ↔ issues = [] := by
  constructor
  · intro h
    have hlength := totalCount_printedCounts issues
    rw [h] at hlength
    exact List.length_eq_zero_iff.1 hlength.symm
  · rintro rfl
    rfl

/-! ## The line -/

/-- The part of the line for a severity. -/
def countText (c : Severity × Nat) : String :=
  natText c.2 ++ " " ++ c.1.label

/-- **The summary line of numbers of issues**, with their sum in front. -/
def summaryLine (counts : List (Severity × Nat)) : String :=
  if counts.isEmpty then "No issues found. Code looks good!"
  else
    "Found " ++ natText (totalCount counts) ++ " issue(s): " ++
      ", ".intercalate (counts.map countText)

/-- **The summary line of issues** is that of their numbers. -/
theorem summarize_eq (issues : List Issue) :
    summarize issues = summaryLine (printedCounts issues) := by
  have hempty : (printedCounts issues).isEmpty = issues.isEmpty := by
    rw [Bool.eq_iff_iff, List.isEmpty_iff, List.isEmpty_iff, printedCounts_eq_nil_iff]
  have hpart (s : Severity) : severityPart? issues s = (printedCount? issues s).map countText := by
    unfold severityPart? printedCount?
    dsimp only
    split <;> rfl
  have hparts : Severity.all.filterMap (severityPart? issues) =
      (printedCounts issues).map countText := by
    unfold printedCounts
    rw [List.map_filterMap]
    congr 1
    funext s
    exact hpart s
  unfold summarize summaryLine
  rw [hempty, hparts, totalCount_printedCounts]

/-! ## Reading the line -/

theorem label_injective {s t : Severity} (h : s.label = t.label) : s = t := by
  revert h
  cases s <;> cases t <;> decide

theorem toList_countText (c : Severity × Nat) :
    (countText c).toList = digitsOf c.2 ++ ' ' :: c.1.label.toList := by
  simp [countText, natText]

/-- A part of the line determines the severity and the number. -/
theorem countText_injective {c d : Severity × Nat} (h : countText c = countText d) : c = d := by
  rw [← String.toList_inj, toList_countText, toList_countText] at h
  obtain ⟨hcount, hlabel⟩ := digitsOf_append_inj rfl rfl h
  exact Prod.ext (label_injective (String.toList_inj.1 (List.cons.inj hlabel).2)) hcount

theorem comma_not_mem_countText (c : Severity × Nat) : ',' ∉ (countText c).toList := by
  have hdigits : ',' ∉ digitsOf c.2 := fun h => absurd (isDigit_of_mem_digitsOf h) (by decide)
  have hlabel : ',' ∉ ' ' :: c.1.label.toList := by cases c.1 <;> decide
  rw [toList_countText, List.mem_append, not_or]
  exact ⟨hdigits, hlabel⟩

/-- The parts of the line can be taken apart. -/
theorem intercalate_countText_injective {cs ds : List (Severity × Nat)} (hcs : cs ≠ [])
    (hds : ds ≠ [])
    (h : ", ".intercalate (cs.map countText) = ", ".intercalate (ds.map countText)) : cs = ds := by
  have hpieces {es : List (Severity × Nat)} (hes : es ≠ []) :
      splitText ", ".toList (", ".intercalate (es.map countText)).toList =
        es.map fun c => (countText c).toList := by
    rw [String.toList_intercalate, List.map_map]
    refine splitText_intercalate ?_ (by simpa using hes)
    intro n hn
    obtain ⟨c, -, rfl⟩ := List.mem_map.1 hn
    exact comma_not_mem_countText c
  have hmap : cs.map (fun c => (countText c).toList) = ds.map fun c => (countText c).toList := by
    rw [← hpieces hcs, h, hpieces hds]
  refine List.map_injective_iff.2 ?_ hmap
  intro c d hcd
  exact countText_injective (String.toList_inj.1 hcd)

theorem toList_summaryLine {cs : List (Severity × Nat)} (hcs : cs ≠ []) :
    (summaryLine cs).toList = "Found ".toList ++ (digitsOf (totalCount cs) ++
      ' ' :: ("issue(s): ".toList ++ (", ".intercalate (cs.map countText)).toList)) := by
  unfold summaryLine
  rw [if_neg (by simpa using hcs)]
  simp [natText]

theorem summaryLine_nil_ne {cs : List (Severity × Nat)} (hcs : cs ≠ []) :
    summaryLine [] ≠ summaryLine cs := by
  intro h
  have hhead : (summaryLine []).toList.head? = (summaryLine cs).toList.head? := by rw [h]
  rw [toList_summaryLine hcs] at hhead
  exact absurd hhead (by simp [summaryLine])

/-- **Different numbers have different lines**. -/
theorem summaryLine_injective : Function.Injective summaryLine := by
  intro cs ds h
  by_cases hcs : cs = []
  · by_contra hne
    subst hcs
    exact summaryLine_nil_ne (Ne.symm hne) h
  by_cases hds : ds = []
  · subst hds
    exact absurd h.symm (summaryLine_nil_ne hcs)
  -- behind the number in front both lines have the same parts
  rw [← String.toList_inj, toList_summaryLine hcs, toList_summaryLine hds] at h
  obtain ⟨-, hbehind⟩ := digitsOf_append_inj rfl rfl (List.append_cancel_left h)
  have hparts := List.append_cancel_left (List.cons.inj hbehind).2
  exact intercalate_countText_injective hcs hds (String.toList_inj.1 hparts)

/-- **The summary line tells the number of issues of each severity, and nothing else.** Two lists of
issues have the same line just if they have as many errors, as many warnings and as many infos; so a
permutation does not change it. The number in front is the sum of the numbers that follow. -/
theorem summarize_exact (a b : List Issue) :
    (summarize a = summarize b ↔
      severityCount .error a = severityCount .error b ∧
      severityCount .warning a = severityCount .warning b ∧
      severityCount .info a = severityCount .info b) ∧
    (a.Perm b → summarize a = summarize b) ∧
    summarize a = summaryLine (printedCounts a) := by
  have hcounts : summarize a = summarize b ↔ ∀ s, severityCount s a = severityCount s b := by
    rw [summarize_eq, summarize_eq, summaryLine_injective.eq_iff, printedCounts_eq_iff]
  refine ⟨?_, ?_, summarize_eq a⟩
  · rw [hcounts]
    constructor
    · intro h
      exact ⟨h .error, h .warning, h .info⟩
    · rintro ⟨herror, hwarning, hinfo⟩ s
      cases s with
      | error => exact herror
      | warning => exact hwarning
      | info => exact hinfo
  · intro hperm
    exact hcounts.2 fun s => hperm.countP_eq _

/-- Issues of two severities, twelve of them infos. -/
def mixedIssues : List Issue :=
  ⟨.noCaseDefault, .warning, some 3, "m", "s", "r"⟩ ::
    List.replicate 12 ⟨.style, .info, none, "m", "s", "r"⟩

theorem summarize_exact_reversed :
    mixedIssues.Perm mixedIssues.reverse ∧
      summarize mixedIssues = summarize mixedIssues.reverse := by
  have hperm : mixedIssues.Perm mixedIssues.reverse := (List.reverse_perm mixedIssues).symm
  exact ⟨hperm, (summarize_exact mixedIssues mixedIssues.reverse).2.1 hperm⟩

end HdlReview.Lint
