import HdlReview.Proofs.Decimal.Numerals
import HdlReview.Proofs.Lint.Assignments
import HdlReview.Proofs.Scan.Division
import Mathlib.Algebra.GroupWithZero.Nat

/-!
# Counting statement by statement

A semicolon divides a source for the patterns of identifiers and of assignments. So what is counted
in a source of several statements can be counted in each of them: the targets of all assignments are
those of the statements one after the other, and names are listed as they appear first, those of the
first statement before what is new in the second. How often a name is assigned is the sum over the
statements, and the rule on repeated assignments reports a name by this sum alone. Its message tells
both, since the last quote in it is the one behind the name.

## Main definitions

* `timesAssigned s x`: how often a name is counted as the target of an assignment

## Main results

* `assignmentTargets_append_semicolon`, `identifiers_append_semicolon`,
  `orderedSignals_append_semicolon`: names of two statements
* `timesAssigned_intercalate`: the sum over any number of statements
* `repeatedTarget_inj`, `issue_mem_check_iff`: what a message tells, and which are reported
* `statement_counts_add_up`: counts and names of statements, and the issues of the rule
-/

namespace HdlReview.Scan

variable {s t x : List Char} {n : Nat}

/-! ## Two statements -/

/-- **The targets of two statements** one after the other. -/
theorem assignmentTargets_append_semicolon (s t : List Char) :
    assignmentTargets (s ++ ';' :: t) = assignmentTargets s ++ assignmentTargets t := by
  unfold assignmentTargets
  rw [dividedBy_assignment.findAll_append_cons exposed_assignment, List.map_append, List.map_map]
  rfl

/-- **The identifiers of two statements**: those of the first, then the new ones of the second. -/
theorem identifiers_append_semicolon (s t : List Char) :
    identifiers (s ++ ';' :: t) =
      identifiers s ++ (identifiers t).filter (· ∉ identifiers s) := by
  have hdivided : Pattern.identifier.DividedBy ';' := dividedBy_wordHit (fun _ _ => rfl) rfl
  unfold identifiers
  rw [hdivided.findAll_append_cons exposed_identifier, List.map_append, List.map_map,
    eraseDups_append_eq]
  rfl

/-- **The signals of two statements**. A name that is no structural keyword is new in the second
statement just if it is no signal of the first. -/
theorem orderedSignals_append_semicolon (s t : List Char) :
    orderedSignals (s ++ ';' :: t) =
      orderedSignals s ++ (orderedSignals t).filter (· ∉ orderedSignals s) := by
  unfold orderedSignals
  rw [identifiers_append_semicolon, List.filter_append, List.filter_comm]
  congr 1
  apply List.filter_congr
  intro x hx
  have hkeyword := (List.mem_filter.1 hx).2
  simp only [List.mem_filter, hkeyword, and_true]

/-! ## Counts -/

/-- **How often a name is assigned**, as it is counted: not at all for a name that is no target. -/
def timesAssigned (s x : List Char) : Nat :=
  ((assignmentCounts s).lookup x).getD 0

theorem timesAssigned_eq_count (s x : List Char) :
    timesAssigned s x = (assignmentTargets s).count x :=
  lookup_assignmentCounts s x

theorem timesAssigned_append_semicolon (s t x : List Char) :
    timesAssigned (s ++ ';' :: t) x = timesAssigned s x + timesAssigned t x := by
  rw [timesAssigned_eq_count, timesAssigned_eq_count, timesAssigned_eq_count,
    assignmentTargets_append_semicolon, List.count_append]

-- an assignment may end at a semicolon, and what stands on its two sides makes none
example : timesAssigned "a =;= 1; b ;<= a; a <= b".toList "a".toList = 2 := by decide +kernel

/-- **The count of a source of statements** is the sum of the counts of the statements. -/
theorem timesAssigned_intercalate (statements : List (List Char)) (x : List Char) :
    timesAssigned ([';'].intercalate statements) x =
      (statements.map (timesAssigned · x)).sum := by
  induction statements with
  | nil => rfl
  | cons s statements ih =>
    rw [List.map_cons, List.sum_cons, ← ih]
    cases statements with
    | nil =>
      rw [List.intercalate_singleton]
      rfl
    | cons t statements =>
      rw [List.intercalate_cons_cons, List.append_assoc, List.singleton_append,
        timesAssigned_append_semicolon]

/-- Counted are the names that are assigned at all, each with its count. -/
theorem mem_assignmentCounts_iff :
    (x, n) ∈ assignmentCounts s ↔ n = timesAssigned s x ∧ 0 < n := by
  rw [timesAssigned_eq_count, assignmentCounts, List.mem_map]
  constructor
  · rintro ⟨y, hy, he⟩
    obtain ⟨rfl, rfl⟩ := Prod.mk.inj he
    exact ⟨rfl, List.count_pos_iff.2 (List.mem_eraseDups.1 hy)⟩
  · rintro ⟨rfl, hpos⟩
    exact ⟨x, List.mem_eraseDups.2 (List.count_pos_iff.1 hpos), rfl⟩

end HdlReview.Scan

namespace HdlReview.Lint

open HdlReview.Decimal HdlReview.Scan

variable {s x y : List Char} {n m : Nat}

/-! ## Messages -/

/-- What stands behind the name in a message about a repeated target. -/
def repeatedTail (n : Nat) : List Char :=
  " assigned multiple times (".toList ++ (digitsOf n ++ ' ' :: "assignments)".toList)

theorem toList_message_repeatedTarget (x : List Char) (n : Nat) :
    (repeatedTarget x n).message.toList =
      "Signal '".toList ++ (x ++ '\'' :: repeatedTail n) := by
  have hbehind : "' assigned multiple times (".toList =
      '\'' :: " assigned multiple times (".toList := by decide
  have hend : " assignments)".toList = ' ' :: "assignments)".toList := by decide
  unfold repeatedTarget repeatedTail
  simp only [String.toList_append, String.toList_ofList, natText, List.append_assoc, hbehind, hend,
    List.cons_append]

theorem quote_not_mem_repeatedTail (n : Nat) : '\'' ∉ repeatedTail n := by
  have hdigits : '\'' ∉ digitsOf n := fun h => absurd (isDigit_of_mem_digitsOf h) (by decide)
  have htext : '\'' ∉ " assigned multiple times (".toList := by decide
  have hend : '\'' ∉ ' ' :: "assignments)".toList := by decide
  unfold repeatedTail
  rw [List.mem_append, List.mem_append, not_or, not_or]
  exact ⟨htext, hdigits, hend⟩

/-- A text is cut at its last quote in one way. -/
theorem append_quote_inj {u v : List Char} (hu : '\'' ∉ u) (hv : '\'' ∉ v)
    (h : x ++ '\'' :: u = y ++ '\'' :: v) : x = y ∧ u = v := by
  rcases List.append_eq_append_iff.1 h with ⟨z, rfl, hz⟩ | ⟨z, rfl, hz⟩
  · cases z with
    | nil => exact ⟨(List.append_nil x).symm, (List.cons.inj hz).2⟩
    | cons c z => exact absurd (by rw [(List.cons.inj hz).2]; simp) hu
  · cases z with
    | nil => exact ⟨List.append_nil y, (List.cons.inj hz).2.symm⟩
    | cons c z => exact absurd (by rw [(List.cons.inj hz).2]; simp) hv

/-- **A message tells the name and the count**, whatever the name. -/
theorem repeatedTarget_inj (h : repeatedTarget x n = repeatedTarget y m) : x = y ∧ n = m := by
  have hmessage := congrArg (fun f => f.message.toList) h
  simp only [toList_message_repeatedTarget] at hmessage
  obtain ⟨hname, htail⟩ := append_quote_inj (quote_not_mem_repeatedTail n)
    (quote_not_mem_repeatedTail m) (List.append_cancel_left hmessage)
  exact ⟨hname, (digitsOf_append_inj rfl rfl (List.append_cancel_left htail)).1⟩

theorem Rule.issue_injective (r : Rule) : Function.Injective r.issue := by
  rintro ⟨line, message⟩ ⟨line', message'⟩ h
  obtain ⟨-, -, rfl, rfl, -⟩ := Issue.mk.inj h
  rfl

/-- **Reported are the names with a count of at least two**, each with its count. -/
theorem issue_mem_check_iff :
    Rule.multipleAssignments.issue (repeatedTarget x n) ∈ Rule.multipleAssignments.check s ↔
      n = timesAssigned s x ∧ 2 ≤ n := by
  rw [Rule.check, List.mem_map_of_injective (Rule.issue_injective _), Rule.findings,
    assignmentFindings, List.mem_map]
  constructor
  · rintro ⟨⟨y, m⟩, hm, he⟩
    obtain ⟨rfl, rfl⟩ := repeatedTarget_inj he
    obtain ⟨hmem, hrepeated⟩ := List.mem_filter.1 hm
    exact ⟨(mem_assignmentCounts_iff.1 hmem).1, of_decide_eq_true hrepeated⟩
  · rintro ⟨hn, hrepeated⟩
    refine ⟨(x, n), List.mem_filter.2 ⟨?_, decide_eq_true hrepeated⟩, rfl⟩
    exact mem_assignmentCounts_iff.2 ⟨hn, Nat.lt_of_succ_lt hrepeated⟩

/-- **Counts of statements add up.** In two statements with a semicolon between them a name is
assigned as often as in both together. The targets are those of the first statement in their order,
then those of the second that are new, in their order, and the same holds for the signals. So for any
number of statements the rule on repeated assignments reports a name just if its counts over the
statements sum to at least two, and the message shows this sum. -/
theorem statement_counts_add_up (s t : List Char) :
    (∀ x, timesAssigned (s ++ ';' :: t) x = timesAssigned s x + timesAssigned t x) ∧
    (assignmentCounts (s ++ ';' :: t)).map (·.1) =
      (assignmentCounts s).map (·.1) ++
        ((assignmentCounts t).map (·.1)).filter (· ∉ (assignmentCounts s).map (·.1)) ∧
    orderedSignals (s ++ ';' :: t) =
      orderedSignals s ++ (orderedSignals t).filter (· ∉ orderedSignals s) ∧
    ∀ (statements : List (List Char)) (x : List Char) (n : Nat),
      Rule.multipleAssignments.issue (repeatedTarget x n) ∈
          Rule.multipleAssignments.check ([';'].intercalate statements) ↔
        n = (statements.map (timesAssigned · x)).sum ∧ 2 ≤ n := by
  refine ⟨timesAssigned_append_semicolon s t, ?_, orderedSignals_append_semicolon s t, ?_⟩
  · simp only [map_fst_assignmentCounts]
    rw [assignmentTargets_append_semicolon, eraseDups_append_eq]
  · intro statements x n
    rw [issue_mem_check_iff, timesAssigned_intercalate]

end HdlReview.Lint
