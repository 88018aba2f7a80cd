import HdlReview.Proofs.Lint.Isolation
import HdlReview.Proofs.Lint.RoundTrip
import HdlReview.Proofs.Scan.FirstAppearance
import HdlReview.Proofs.Scan.Lines
import Mathlib.Data.List.Nodup
import Mathlib.Data.List.Perm.Subperm

/-!
# The form of a standard review

A review with the standard rules is the rules' issues one after the other. Every issue has a message
and, if it has a line, one of the lines of the source; all else is what its rule stamps on it. A
rule has at most one finding, the rule on repeated assignments at most one for each target. The
report is therefore read back from its data.

## Main definitions

* `Finding.Sound s f`: a message, and no line that the source does not have

## Main results

* `Rule.sound_of_mem_findings`, `Rule.length_findings_le_one`: what one rule finds
* `issues_review`, `filter_ruleId_review`: the issues of a review, rule by rule
* `totalIssues_review_le`: how many issues a review can have
* `review_well_formed`: the form of a whole review
-/

namespace HdlReview.Lint

open HdlReview.Scan HdlReview.Decimal

/-! ## Findings of one rule -/

/-- A finding with a message, and with no line that the source does not have. -/
structure Finding.Sound (s : List Char) (f : Finding) : Prop where
  message : f.message ≠ ""
  line : ∀ n, f.line = some n → 1 ≤ n ∧ n ≤ (lines s).length

variable (s : List Char)

theorem sound_findingIf {condition : Bool} {message : String} (h : message ≠ "") :
    ∀ f ∈ findingIf condition message, f.Sound s := by
  intro f hf
  rw [findingIf] at hf
  split at hf
  · obtain rfl := List.mem_singleton.1 hf
    exact ⟨h, nofun⟩
  · simp at hf

theorem length_findingIf_le_one (condition : Bool) (message : String) :
    (findingIf condition message).length ≤ 1 := by
  rw [findingIf]
  split <;> simp

theorem findingIf_ne_nil_iff {condition : Bool} {message : String} :
    findingIf condition message ≠ [] ↔ condition = true := by
  cases condition <;> simp [findingIf]

/-- A finding of the latch rule is on the line of the first `if`. -/
theorem exists_of_mem_latchFindings {f : Finding} (hf : f ∈ latchFindings s) :
    ∃ line, lineOfFirst (.wholeWord "if") s = some line ∧
      f = ⟨some line, "Incomplete if statement may cause latch inference"⟩ := by
  rw [latchFindings] at hf
  split at hf
  · simp at hf
  · split at hf
    · next line hline => exact ⟨line, hline, List.mem_singleton.1 hf⟩
    · simp at hf

theorem sound_latchFindings : ∀ f ∈ latchFindings s, f.Sound s := by
  intro f hf
  obtain ⟨line, hline, rfl⟩ := exists_of_mem_latchFindings s hf
  obtain ⟨m, -, rfl⟩ := Option.map_eq_some_iff.1 hline
  refine ⟨by simp, ?_⟩
  rintro n ⟨⟩
  exact ⟨one_le_lineOf s m.start, lineOf_le_length_lines s m.start⟩

/-- A finding of the rule on sensitivity lists is on the line of the first header. -/
theorem exists_of_mem_sensitivityFindings {f : Finding} (hf : f ∈ sensitivityFindings s) :
    ∃ header, search .alwaysHeader s = some header ∧
      f = missingFinding (lineOf s header.start) (missingSignals s header.group) := by
  rw [sensitivityFindings] at hf
  split at hf
  · simp at hf
  · next header hheader =>
    dsimp only at hf
    split at hf
    · simp at hf
    · split at hf
      · simp at hf
      · exact ⟨header, hheader, List.mem_singleton.1 hf⟩

theorem sound_sensitivityFindings : ∀ f ∈ sensitivityFindings s, f.Sound s := by
  intro f hf
  obtain ⟨header, -, rfl⟩ := exists_of_mem_sensitivityFindings s hf
  refine ⟨by simp [missingFinding], ?_⟩
  rintro n ⟨⟩
  exact ⟨one_le_lineOf s header.start, lineOf_le_length_lines s header.start⟩

theorem sound_assignmentFindings : ∀ f ∈ assignmentFindings s, f.Sound s := by
  intro f hf
  obtain ⟨⟨name, count⟩, -, rfl⟩ := List.mem_map.1 hf
  exact ⟨by simp [repeatedTarget], nofun⟩

namespace Rule

/-- **What a rule finds** has a message and lies on a line of the source. -/
theorem sound_of_mem_findings (r : Rule) : ∀ f ∈ r.findings s, f.Sound s := by
  cases r with
  | latchInference => exact sound_latchFindings s
  | incompleteSensitivity => exact sound_sensitivityFindings s
  | multipleAssignments => exact sound_assignmentFindings s
  | _ => exact sound_findingIf s (by simp)

theorem length_findings_le_one {r : Rule} (h : r ≠ .multipleAssignments) :
    (r.findings s).length ≤ 1 := by
  cases r with
  | latchInference =>
    change (latchFindings s).length ≤ 1
    rw [latchFindings]
    split
    · simp
    · split <;> simp
  | incompleteSensitivity =>
    change (sensitivityFindings s).length ≤ 1
    rw [sensitivityFindings]
    split
    · simp
    · dsimp only
      split
      · simp
      · split <;> simp
  | multipleAssignments => exact absurd rfl h
  | _ => exact length_findingIf_le_one _ _

variable {s} in
theorem check_ne_nil_iff {r : Rule} : r.check s ≠ [] ↔ r.findings s ≠ [] := by
  rw [check, ne_eq, List.map_eq_nil_iff]

theorem ruleId_of_mem_check {r : Rule} {i : Issue} (h : i ∈ r.check s) : i.ruleId = r.id := by
  obtain ⟨f, -, rfl⟩ := List.mem_map.1 h
  rfl

theorem valid_of_mem_check {r : Rule} {i : Issue} (h : i ∈ r.check s) : i.Valid := by
  obtain ⟨f, hf, rfl⟩ := List.mem_map.1 h
  have hs := r.sound_of_mem_findings s f hf
  exact ⟨fun n hn => (hs.line n hn).1, hs.message, by cases r <;> simp [issue, suggestion]⟩

end Rule

theorem Table.entries_foldl_insert (entries : List (String × Check)) (t : Table)
    (h : ((t.entries ++ entries).map (·.1)).Nodup) :
    (entries.foldl (fun t entry => t.insert entry.1 entry.2) t).entries = t.entries ++ entries := by
  induction entries generalizing t with
  | nil => simp
  | cons entry entries ih =>
    have hnew : entry.1 ∉ t.entries.map (·.1) := by
      rw [List.map_append, List.nodup_append] at h
      exact fun hm => h.2.2 _ hm _ (by simp) rfl
    -- a new id is added at the end of the table
    have hi : (t.insert entry.1 entry.2).entries = t.entries ++ [entry] :=
      Keyed.insert_of_not_mem hnew entry.2
    rw [List.foldl_cons, ih, hi, List.append_assoc, List.singleton_append]
    rw [hi]
    simpa using h

/-- The table of checks with distinct ids holds just these. -/
theorem Table.entries_ofEntries {entries : List (String × Check)}
    (h : (entries.map (·.1)).Nodup) : (Table.ofEntries entries).entries = entries :=
  Table.entries_foldl_insert entries .empty h

theorem nodup_ids_rulesFor (l : Language) : ((rulesFor l).map Rule.id).Nodup := by
  cases l <;> decide

theorem entries_table_standard (l : Language) :
    (Engine.standard.table l).entries = (rulesFor l).map fun r => (r.id, r.toCheck) := by
  have ht : Engine.standard.table l = Table.ofRules (rulesFor l) := by cases l <;> rfl
  rw [ht, Table.ofRules, Table.entries_ofEntries]
  simpa [Function.comp_def] using nodup_ids_rulesFor l

/-- A rule never fails. -/
theorem spares_toCheck (r : Rule) : Spares s (r.id, r.toCheck) := by
  intro f hf
  cases hf

/-- **The run of the standard rules** comes to its end, and each rule adds its issues. -/
theorem progress_standard (l : Language) :
    (Engine.standard.table l).progress s =
      ⟨(rulesFor l).map Rule.id, (rulesFor l).flatMap fun r => r.check s, [], none⟩ := by
  have hspares : ∀ entry ∈ (Engine.standard.table l).entries, Spares s entry := by
    intro entry hm
    rw [entries_table_standard] at hm
    obtain ⟨r, -, rfl⟩ := List.mem_map.1 hm
    exact spares_toCheck s r
  have hrecords : (rulesFor l).filterMap (fun r => entryRecord? s (r.id, r.toCheck)) = [] :=
    List.filterMap_eq_nil_iff.2 fun _ _ => rfl
  rw [Table.progress, Progress.checkAll_of_spares rfl hspares, entries_table_standard, List.map_map,
    List.flatMap_map, List.filterMap_map]
  simp only [Progress.start, List.nil_append, Progress.mk.injEq, and_true]
  exact ⟨rfl, rfl, hrecords⟩

/-- **A run of the standard rules** gives the review and its log records. -/
theorem run_standard (l : Language) :
    Engine.standard.run l s = (.ok (reviewed l s).1, (reviewed l s).2) := by
  have hended : ((Engine.standard.table l).progress s).ended = none := by rw [progress_standard]
  rw [Engine.run, hended]
  rfl

/-- **The issues of a review**, rule by rule. -/
theorem issues_review (l : Language) :
    (review l s).issues = (rulesFor l).flatMap fun r => r.check s := by
  rw [review, reviewed, progress_standard]
  rfl

theorem rulesExecuted_review (l : Language) :
    (review l s).rulesExecuted = (rulesFor l).map Rule.id := by
  rw [review, reviewed, progress_standard]
  rfl

theorem mem_issues_review {l : Language} {i : Issue} :
    i ∈ (review l s).issues ↔ ∃ r ∈ rulesFor l, i ∈ r.check s := by
  rw [issues_review, List.mem_flatMap]

theorem filter_ruleId_check_self (r : Rule) :
    (r.check s).filter (fun i => i.ruleId = r.id) = r.check s := by
  rw [List.filter_eq_self]
  intro i hi
  exact decide_eq_true (r.ruleId_of_mem_check s hi)

theorem filter_ruleId_flatMap_check {rules : List Rule} {id : String}
    (h : id ∉ rules.map Rule.id) :
    (rules.flatMap fun r => r.check s).filter (fun i => i.ruleId = id) = [] := by
  rw [List.filter_eq_nil_iff]
  intro i hi hid
  obtain ⟨r, hr, hc⟩ := List.mem_flatMap.1 hi
  refine h (List.mem_map.2 ⟨r, hr, ?_⟩)
  rw [← r.ruleId_of_mem_check s hc]
  exact of_decide_eq_true hid

/-- The issues under the id of a rule are the ones that the rule finds. -/
theorem filter_ruleId_review {l : Language} {r : Rule} (hr : r ∈ rulesFor l) :
    (review l s).issues.filter (fun i => i.ruleId = r.id) = r.check s := by
  have hn := nodup_ids_rulesFor l
  obtain ⟨front, back, he⟩ := List.append_of_mem hr
  -- neither the rules before `r` nor those behind it have its id
  rw [he, List.map_append, List.map_cons, List.nodup_append, List.nodup_cons] at hn
  have hfront : r.id ∉ front.map Rule.id := fun hm => hn.2.2 _ hm _ (by simp) rfl
  rw [issues_review, he, List.flatMap_append, List.flatMap_cons, List.filter_append,
    List.filter_append, filter_ruleId_flatMap_check s hfront, filter_ruleId_check_self,
    filter_ruleId_flatMap_check s hn.2.1.1, List.append_nil, List.nil_append]

/-! ## The number of issues -/

theorem length_findFrom_le (p : Pattern) (skip : Nat) (before : Option Char) (position : Nat)
    (s : List Char) : (findFrom p skip before position s).length ≤ s.length := by
  induction s generalizing skip before position with
  | nil => cases skip <;> exact Nat.le_refl 0
  | cons c s ih =>
    cases skip with
    | succ skip => exact Nat.le_succ_of_le (ih ..)
    | zero =>
      rw [findFrom]
      split
      · exact Nat.succ_le_succ (ih ..)
      · exact Nat.le_succ_of_le (ih ..)

/-- A list has room for twice the elements that it holds at least twice. -/
theorem two_mul_length_le {names l : List (List Char)} (hnodup : names.Nodup)
    (htwice : ∀ x ∈ names, 2 ≤ l.count x) : 2 * names.length ≤ l.length := by
  have hsubperm : (names ++ names).Subperm l := by
    refine List.subperm_ext_iff.2 fun x hx => ?_
    have hx : x ∈ names := by simpa using hx
    rw [List.count_append, List.count_eq_one_of_mem hnodup hx]
    exact htwice x hx
  simpa [Nat.two_mul] using hsubperm.length_le

/-- Each target that is reported takes two assignments. -/
theorem length_assignmentFindings_le : 2 * (assignmentFindings s).length ≤ s.length := by
  have htargets : (assignmentTargets s).length ≤ s.length := by
    rw [assignmentTargets, List.length_map]
    exact length_findFrom_le ..
  have hfindings : (assignmentFindings s).length = ((assignmentTargets s).eraseDups.filter
      fun name => 1 < (assignmentTargets s).count name).length := by
    rw [assignmentFindings, assignmentCounts]
    simp [List.filter_map, Function.comp_def]
  rw [hfindings]
  refine Nat.le_trans (two_mul_length_le ((nodup_eraseDups _).filter _) fun x hx => ?_) htargets
  exact of_decide_eq_true (List.mem_filter.1 hx).2

/-- **A review has few issues**: six at most, and one for two characters of the source. -/
theorem totalIssues_review_le (l : Language) : (review l s).totalIssues ≤ 6 + s.length / 2 := by
  have hrule : ∀ r : Rule, r ≠ .multipleAssignments → (r.check s).length ≤ 1 := by
    intro r hr
    rw [Rule.check, List.length_map]
    exact Rule.length_findings_le_one s hr
  have hassignments : 2 * (Rule.multipleAssignments.check s).length ≤ s.length := by
    rw [Rule.check, List.length_map]
    exact length_assignmentFindings_le s
  have htotal : (review l s).totalIssues =
      ((rulesFor l).flatMap fun r => r.check s).length := by
    rw [← issues_review]
    rfl
  have hlatch := hrule .latchInference nofun
  have hblocking := hrule .blockingInSequential nofun
  have hsensitivity := hrule .incompleteSensitivity nofun
  have hcase := hrule .caseDefault nofun
  have hcrossing := hrule .clockDomainCrossing nofun
  have hprocess := hrule .vhdlLatchInference nofun
  have hmixed := hrule .mixedVariableSignal nofun
  have hlong := hrule .longLines nofun
  rw [htotal]
  cases l with
  | verilog =>
    simp only [rulesFor, commonRules, List.cons_append, List.nil_append, List.flatMap_cons,
      List.flatMap_nil, List.length_append, List.length_nil]
    omega
  | vhdl =>
    simp only [rulesFor, commonRules, List.cons_append, List.nil_append, List.flatMap_cons,
      List.flatMap_nil, List.length_append, List.length_nil]
    omega

theorem valid_review (l : Language) : (review l s).Valid where
  issues := by
    intro i hi
    obtain ⟨r, -, hc⟩ := (mem_issues_review s).1 hi
    exact r.valid_of_mem_check s hc
  total := rfl

end HdlReview.Lint
