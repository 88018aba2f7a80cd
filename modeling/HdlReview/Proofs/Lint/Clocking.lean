import HdlReview.Lint.Rule
import HdlReview.Proofs.Scan.Headers
import HdlReview.Proofs.Scan.Marks

/-!
# Rules on clocked headers

Two rules look at the headers of a source: one reports clocks that differ, the other reports
assignments by a plain equals sign where some header names a clock edge and no assignment is
non-blocking. Since every header is found, both can be said through all lists of headers.

## Main definitions

* `CrossesClocks s`, `BlocksClocked s`: what the two rules report
* `Rule.ReportsJust r s message condition`: a rule reports its one message just under a condition

## Main results

* `two_le_length_clockSignals_iff`: when there are two clocks
* `header_rules_exact`: clock edges, clocks, and the issues of the two rules
-/

namespace HdlReview.Scan

variable {s : List Char}

/-! ## Clocks -/

/-- **Two headers with different clocks**. -/
def CrossesClocks (s : List Char) : Prop :=
  ∃ list name list' name', (ListOf s list ∧ Clock list name) ∧
    (ListOf s list' ∧ Clock list' name') ∧ name ≠ name'

/-- **A clock edge in a header, and plain equals signs only**. -/
def BlocksClocked (s : List Char) : Prop :=
  (∃ list, ListOf s list ∧ HasEdge list) ∧ ¬ "<=".toList <:+: s ∧ LoneEquals s

theorem two_le_length_iff_of_nodup {α : Type} {l : List α} (hl : l.Nodup) :
    2 ≤ l.length ↔ ∃ x ∈ l, ∃ y ∈ l, x ≠ y := by
  rcases l with _ | ⟨x, _ | ⟨y, l⟩⟩
  · simp
  · simp
  · have hne : x ≠ y := by
      rintro rfl
      simp at hl
    refine iff_of_true (by simp) ?_
    exact ⟨x, by simp, y, by simp, hne⟩

theorem nodup_clockSignals (s : List Char) : (clockSignals s).Nodup :=
  nodup_eraseDups _

theorem two_le_length_clockSignals_iff : 2 ≤ (clockSignals s).length ↔ CrossesClocks s := by
  rw [two_le_length_iff_of_nodup (nodup_clockSignals s)]
  constructor
  · rintro ⟨name, hname, name', hname', hne⟩
    obtain ⟨list, hlist⟩ := mem_clockSignals_iff.1 hname
    obtain ⟨list', hlist'⟩ := mem_clockSignals_iff.1 hname'
    exact ⟨list, name, list', name', hlist, hlist', hne⟩
  · rintro ⟨list, name, list', name', hlist, hlist', hne⟩
    exact ⟨name, mem_clockSignals_iff.2 ⟨list, hlist⟩, name',
      mem_clockSignals_iff.2 ⟨list', hlist'⟩, hne⟩

end HdlReview.Scan

namespace HdlReview.Lint

open HdlReview.Scan

/-! ## Issues -/

/-- **A rule reports its message just under a condition**: one issue if the condition holds, and
none otherwise. -/
def Rule.ReportsJust (r : Rule) (s : List Char) (message : String) (condition : Prop) : Prop :=
  (condition → r.check s = [r.issue ⟨none, message⟩]) ∧ (¬ condition → r.check s = [])

theorem Rule.reportsJust_of_findingIf {r : Rule} {s : List Char} {message : String} {found : Bool}
    {condition : Prop} (hfindings : r.findings s = findingIf found message)
    (hfound : found = true ↔ condition) : r.ReportsJust s message condition := by
  rw [Rule.ReportsJust, Rule.check, hfindings, ← hfound]
  cases found <;> simp [findingIf]

/-- **The rules on headers see every header.** A clock edge is found just if some list of a header
has one as a whole word; the clocks that are found are, each once, those of all lists of headers;
the rule on crossings reports just different clocks; and the rule on blocking assignments reports
just an edge in a header together with a lone equals sign, where no mark of a non-blocking
assignment occurs. -/
theorem header_rules_exact (s : List Char) :
    (hasEdgeHeader s = true ↔ ∃ list, ListOf s list ∧ HasEdge list) ∧
    (clockSignals s).Nodup ∧
    (∀ name, name ∈ clockSignals s ↔ ∃ list, ListOf s list ∧ Clock list name) ∧
    Rule.clockDomainCrossing.ReportsJust s
      "Multiple clock domains detected - potential CDC issues" (CrossesClocks s) ∧
    Rule.blockingInSequential.ReportsJust s
      "Using blocking assignments (=) in sequential always block" (BlocksClocked s) := by
  refine ⟨hasEdgeHeader_iff, nodup_clockSignals s, fun name => mem_clockSignals_iff, ?_, ?_⟩
  · apply Rule.reportsJust_of_findingIf rfl
    rw [decide_eq_true_iff]
    exact two_le_length_clockSignals_iff
  · apply Rule.reportsJust_of_findingIf rfl
    rw [Bool.and_eq_true, Bool.and_eq_true, Bool.not_eq_true', ← Bool.not_eq_true,
      hasEdgeHeader_iff, contains_nonBlocking_iff, contains_blocking_iff, and_assoc]
    rfl

end HdlReview.Lint
