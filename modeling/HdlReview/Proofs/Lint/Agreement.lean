import HdlReview.Proofs.Lint.Assignments
import HdlReview.Proofs.Lint.Clocking
import HdlReview.Proofs.Lint.Review
import HdlReview.Proofs.Lint.Sensitivity

/-!
# Rules that agree with each other

Several rules look for the same thing in different ways. A clock edge is looked for in all headers,
in the first header behind `always` whose list is on one line, and as the word before the name of a
clock. An assignment is looked for as a target with a mark behind it, and as a lone equals sign.
Nevertheless the rules do not contradict each other: whatever is found in one way is found in the
more general way as well.

A list behind `always` is the list of a header, because the letters `always` and the blanks behind
them may as well stand outside of it. The name of a clock has blanks before it, which end the word
`posedge`. And behind a target and blanks there is nothing that joins an equals sign, so that the
mark of an assignment is non-blocking or a lone equals sign.

## Main results

* `AlwaysAt.listOf`, `ClockAt.hasEdge`: clock edges in headers
* `AssignedAt.mark`: the marks of assignments
* `verilog_rules_agree`: clock edges and assignments, as the rules report them
-/

namespace HdlReview.Scan

open HdlReview.Text

variable {i : Nat} {s list name x : List Char}

/-! ## Clock edges -/

/-- A list behind `always` is the list of a header. -/
theorem AlwaysAt.listOf (hat : AlwaysAt s i list) : ListOf s list := by
  obtain ⟨a, gap, gap', b, rfl, -, -, hgap', hlist⟩ := hat
  refine ⟨a ++ ("always".toList ++ gap), gap', b, by simp, hgap', ?_⟩
  intro c hc
  exact ⟨(hlist c hc).1, (hlist c hc).2.1⟩

/-- The word before a clock is a clock edge. -/
theorem ClockAt.hasEdge (hat : ClockAt list i name) : HasEdge list := by
  obtain ⟨a, gap, rest, rfl, -, hbefore, hgap, -⟩ := hat
  refine .inl ⟨a, gap ++ (name ++ rest), by simp, by decide, hbefore, ?_⟩
  intro c hc
  rw [List.head?_append_of_ne_nil gap hgap.ne_nil] at hc
  exact isWord_eq_false_of_isBlank (hgap.all c (List.mem_of_mem_head? hc))

theorem hasEdgeHeader_of_search {m : Match} (hm : search .alwaysHeader s = some m)
    (hedge : contains .edge m.group = true) : hasEdgeHeader s = true := by
  have hat : AlwaysAt s m.start m.group := (firstAlways_of_search hm).1
  exact hasEdgeHeader_iff.2 ⟨m.group, hat.listOf, contains_edge_iff.1 hedge⟩

theorem hasEdgeHeader_of_clockSignals (hclocks : clockSignals s ≠ []) :
    hasEdgeHeader s = true := by
  obtain ⟨name, hname⟩ := List.exists_mem_of_ne_nil _ hclocks
  obtain ⟨list, hlist, i, hat, -⟩ := mem_clockSignals_iff.1 hname
  exact hasEdgeHeader_iff.2 ⟨list, hlist, hat.hasEdge⟩

/-! ## Marks of assignments -/

/-- Neither a word nor blanks behind it join an equals sign. -/
theorem any_joinsEquals_getLast? {a gap : List Char} (hx : IsRun isWord x)
    (hgap : ∀ c ∈ gap, isBlank c = true) :
    (a ++ (x ++ gap)).getLast?.any joinsEquals = false := by
  rw [← behind_none_eq_getLast?, behind_append, behind_append]
  -- the last character is of the word if there are no blanks, and a blank otherwise
  by_cases hne : gap = []
  · obtain ⟨c, hc, hlast⟩ := exists_mem_behind hx.ne_nil (behind none a)
    rw [hne, behind_nil, hlast]
    exact joinsEquals_of_isWord (hx.all c hc)
  · exact (plain_behind_run ⟨hne, hgap⟩).apart

/-- **The mark of an assignment** is non-blocking, or it is a lone equals sign. -/
theorem AssignedAt.mark (hat : AssignedAt s x i) : "<=".toList <:+: s ∨ LoneEquals s := by
  obtain ⟨-, gap, mark, rest, ⟨a, rfl, -, hx, -⟩, hgap, hmark, hrest⟩ := hat
  rcases List.mem_cons.1 hmark with rfl | hmark
  · right
    have hapart := any_joinsEquals_eq_false_iff.1 (any_joinsEquals_getLast? (a := a) hx hgap)
    obtain ⟨hless, hgreater, hequals, hnot⟩ := hapart
    exact ⟨a ++ (x ++ gap), ['='], rest, by simp, by decide, hequals, hrest, rfl, hless, hgreater,
      hnot⟩
  · left
    obtain rfl := List.mem_singleton.1 hmark
    exact ⟨a ++ (x ++ gap), rest, by simp⟩

theorem exists_assignedAt (hcounts : assignmentCounts s ≠ []) : ∃ x i, AssignedAt s x i := by
  have hnames : (assignmentTargets s).eraseDups ≠ [] := by
    rwa [← map_fst_assignmentCounts, ne_eq, List.map_eq_nil_iff]
  by_contra hnone
  push Not at hnone
  exact hnames ((inOrder_assignmentTargets s).eq_nil_iff.2 hnone)

end HdlReview.Scan

namespace HdlReview.Lint

open HdlReview.Scan

variable {s : List Char}

/-! ## Issues -/

theorem clockSignals_ne_nil_of_check (hcheck : Rule.clockDomainCrossing.check s ≠ []) :
    clockSignals s ≠ [] := by
  rw [Rule.check_ne_nil_iff, Rule.findings, crossingFindings, findingIf_ne_nil_iff,
    decide_eq_true_iff] at hcheck
  intro hnone
  rw [hnone] at hcheck
  exact absurd hcheck (by decide)

theorem assignmentCounts_ne_nil_of_check (hcheck : Rule.multipleAssignments.check s ≠ []) :
    assignmentCounts s ≠ [] := by
  intro hnone
  rw [Rule.check_ne_nil_iff, Rule.findings, assignmentFindings, hnone] at hcheck
  exact hcheck rfl

theorem check_blockingInSequential_ne_nil_iff :
    Rule.blockingInSequential.check s ≠ [] ↔
      hasEdgeHeader s = true ∧ ¬ "<=".toList <:+: s ∧ LoneEquals s := by
  rw [Rule.check_ne_nil_iff, Rule.findings, blockingFindings, findingIf_ne_nil_iff,
    Bool.and_eq_true, Bool.and_eq_true, Bool.not_eq_true', ← Bool.not_eq_true,
    contains_nonBlocking_iff, contains_blocking_iff, and_assoc]
  rfl

/-- **With a clock edge and an assignment**, the rule on blocking assignments reports just if no mark
is non-blocking. -/
theorem check_blockingInSequential_iff (hedge : hasEdgeHeader s = true)
    (hcounts : assignmentCounts s ≠ []) :
    Rule.blockingInSequential.check s ≠ [] ↔ ¬ "<=".toList <:+: s := by
  rw [check_blockingInSequential_ne_nil_iff]
  constructor
  · rintro ⟨-, hnone, -⟩
    exact hnone
  · intro hnone
    obtain ⟨x, i, hat⟩ := exists_assignedAt hcounts
    exact ⟨hedge, hnone, hat.mark.resolve_left hnone⟩

/-- **The rules agree with each other.** A clock edge in the header that the rule on sensitivity
lists looks at is one in some header, and so is the edge of a clock, in particular if the rule on
crossings reports. With an edge in some header and a target that is assigned, the rule on blocking
assignments reports just if no mark is non-blocking; so if the rule on repeated assignments reports
as well, there is such a mark or a report of the other rule. -/
theorem verilog_rules_agree (s : List Char) :
    (∀ header, search .alwaysHeader s = some header → contains .edge header.group = true →
      hasEdgeHeader s = true) ∧
    (clockSignals s ≠ [] → hasEdgeHeader s = true) ∧
    (Rule.clockDomainCrossing.check s ≠ [] → hasEdgeHeader s = true) ∧
    (hasEdgeHeader s = true → assignmentCounts s ≠ [] →
      (Rule.blockingInSequential.check s ≠ [] ↔ ¬ "<=".toList <:+: s)) ∧
    (hasEdgeHeader s = true → Rule.multipleAssignments.check s ≠ [] →
      "<=".toList <:+: s ∨ Rule.blockingInSequential.check s ≠ []) := by
  refine ⟨fun header => hasEdgeHeader_of_search, hasEdgeHeader_of_clockSignals, ?_,
    check_blockingInSequential_iff, ?_⟩
  · intro hcheck
    exact hasEdgeHeader_of_clockSignals (clockSignals_ne_nil_of_check hcheck)
  · intro hedge hcheck
    rw [check_blockingInSequential_iff hedge (assignmentCounts_ne_nil_of_check hcheck)]
    exact Classical.em _

/-- A source with two clocks, and with a register that is assigned by both. -/
def twoClocks : List Char :=
  "always @(posedge a) q = d; always @(posedge b) q=e;".toList

/-- Both clocks are edges, and both assignments are blocking. -/
theorem verilog_rules_agree_twoClocks :
    (∃ header, search .alwaysHeader twoClocks = some header ∧
      contains .edge header.group = true ∧ hasEdgeHeader twoClocks = true) ∧
    (clockSignals twoClocks ≠ [] ∧ hasEdgeHeader twoClocks = true) ∧
    (Rule.clockDomainCrossing.check twoClocks ≠ [] ∧ hasEdgeHeader twoClocks = true) ∧
    (assignmentCounts twoClocks ≠ [] ∧ ¬ "<=".toList <:+: twoClocks ∧
      Rule.blockingInSequential.check twoClocks ≠ []) ∧
    (Rule.multipleAssignments.check twoClocks ≠ [] ∧
      ("<=".toList <:+: twoClocks ∨ Rule.blockingInSequential.check twoClocks ≠ [])) := by
  have hsearch : search .alwaysHeader twoClocks =
      some ⟨0, "always @(posedge a)".toList, ["posedge a".toList]⟩ := by decide +kernel
  have hlist : contains .edge "posedge a".toList = true := by decide +kernel
  have hclocks : clockSignals twoClocks ≠ [] := by decide +kernel
  have hcrossing : Rule.clockDomainCrossing.check twoClocks ≠ [] := by decide +kernel
  have hcounts : assignmentCounts twoClocks ≠ [] := by decide +kernel
  have hmark : ¬ "<=".toList <:+: twoClocks := by decide +kernel
  have hrepeated : Rule.multipleAssignments.check twoClocks ≠ [] := by decide +kernel
  obtain ⟨hfirst, hclock, hcross, hblocking, hmarks⟩ := verilog_rules_agree twoClocks
  have hedge : hasEdgeHeader twoClocks = true := hfirst _ hsearch hlist
  refine ⟨⟨_, hsearch, hlist, hedge⟩, ⟨hclocks, hclock hclocks⟩, ⟨hcrossing, hcross hcrossing⟩,
    ⟨hcounts, hmark, ?_⟩, hrepeated, hmarks hedge hrepeated⟩
  exact (hblocking hedge hcounts).2 hmark

end HdlReview.Lint
