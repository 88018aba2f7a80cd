import HdlReview.Lint.Rule
import HdlReview.Proofs.Scan.Marks
import Mathlib.Data.Finset.Card
import Mathlib.Data.Finset.Range

/-!
# Repeated assignments

The search for assignments takes no part of a word for the identifier and loses no assignment to
another one, so the number of times a target is counted is the number of places at which it is
assigned, and the rule reports just the targets with at least two such places.

## Main definitions

* `assignmentPlaces s x`: the places at which `x` is assigned

## Main results

* `inOrder_assignmentTargets`, `count_assignmentTargets`: the targets and how often each is found
* `repeated_assignments_exact`: the counts of a source and the issues of the rule
-/

namespace HdlReview.Scan

variable {i : Nat} {s x : List Char}

/-! ## Targets -/

theorem exists_mem_findAll_assignment_iff :
    (∃ m ∈ findAll .assignment s, m.group = x ∧ m.start = i) ↔ AssignedAt s x i := by
  rw [captures_assignment.findAll_iff exposed_assignment, capturedAt_assignment_iff]

/-- **The targets of assignments**, each once, in order of first appearance. -/
theorem inOrder_assignmentTargets (s : List Char) :
    InOrder (AssignedAt s) (assignmentTargets s).eraseDups :=
  (inOrder_eraseDups (pairwise_start_findAll _ s)).congr fun _ _ =>
    exists_mem_findAll_assignment_iff

theorem map_fst_assignmentCounts (s : List Char) :
    (assignmentCounts s).map (·.1) = (assignmentTargets s).eraseDups := by
  rw [assignmentCounts, List.map_map]
  exact List.map_id _

theorem lookup_map_pair {α : Type} [BEq α] [LawfulBEq α] (f : α → Nat) (l : List α) (x : α) :
    (l.map fun y => (y, f y)).lookup x = if x ∈ l then some (f x) else none := by
  induction l with
  | nil => rfl
  | cons y l ih =>
    rw [List.map_cons, List.lookup_cons]
    by_cases hx : x = y
    · simp [hx]
    · have hne : (x == y) = false := by simpa using hx
      simp [hne, hx, ih]

/-- The number that is counted for a name, none for a name that is no target. -/
theorem lookup_assignmentCounts (s x : List Char) :
    ((assignmentCounts s).lookup x).getD 0 = (assignmentTargets s).count x := by
  rw [assignmentCounts, lookup_map_pair]
  split
  · rfl
  · next hx =>
    rw [List.mem_eraseDups] at hx
    exact (List.count_eq_zero.2 hx).symm

/-! ## Places of assignments -/

theorem assignedAt_iff_groups :
    AssignedAt s x i ↔
      (assignmentHit? (behind none (s.take i)) (s.drop i)).map (·.groups) = some [x] := by
  rw [← capturedAt_assignment_iff, Option.map_eq_some_iff]
  simp only [CapturedAt, hitAt_iff]
  constructor
  · rintro ⟨text, hh⟩
    exact ⟨_, hh, rfl⟩
  · rintro ⟨⟨text, groups⟩, hh, rfl⟩
    exact ⟨text, hh⟩

instance (s x : List Char) (i : Nat) : Decidable (AssignedAt s x i) :=
  decidable_of_iff _ assignedAt_iff_groups.symm

/-- **The places at which a name is assigned**. -/
def assignmentPlaces (s x : List Char) : Finset Nat :=
  (Finset.range s.length).filter (AssignedAt s x)

theorem AssignedAt.lt_length (hx : AssignedAt s x i) : i < s.length := by
  obtain ⟨hident, gap, mark, rest, ⟨a, rfl, rfl, hw, -⟩, -⟩ := hx
  have hpos : 0 < x.length := List.length_pos_iff.2 hw.ne_nil
  simp only [List.length_append]
  omega

@[simp] theorem mem_assignmentPlaces : i ∈ assignmentPlaces s x ↔ AssignedAt s x i := by
  rw [assignmentPlaces, Finset.mem_filter, Finset.mem_range]
  exact ⟨fun hx => hx.2, fun hx => ⟨hx.lt_length, hx⟩⟩

/-- **How often a target is found** is the number of its places. -/
theorem count_assignmentTargets (s x : List Char) :
    (assignmentTargets s).count x = (assignmentPlaces s x).card := by
  let found := (findAll .assignment s).filter fun m => m.group == x
  have hnodup : (found.map (·.start)).Nodup := by
    have hpairwise : found.Pairwise fun m m' => m.start < m'.start :=
      (pairwise_start_findAll _ s).sublist List.filter_sublist
    rw [List.Nodup, List.pairwise_map]
    exact hpairwise.imp fun hlt => Nat.ne_of_lt hlt
  have hplaces : (found.map (·.start)).toFinset = assignmentPlaces s x := by
    apply Finset.ext
    intro i
    rw [List.mem_toFinset, mem_assignmentPlaces, ← exists_mem_findAll_assignment_iff]
    simp only [found, List.mem_map, List.mem_filter, beq_iff_eq, and_assoc]
  calc (assignmentTargets s).count x = found.length := by
        rw [assignmentTargets, List.count, List.countP_map, List.countP_eq_length_filter]
        rfl
    _ = (found.map (·.start)).toFinset.card := by
        rw [List.toFinset_card_of_nodup hnodup, List.length_map]
    _ = (assignmentPlaces s x).card := by rw [hplaces]

end HdlReview.Scan

namespace HdlReview.Lint

open HdlReview.Decimal HdlReview.Scan

theorem check_multipleAssignments (s : List Char) :
    Rule.multipleAssignments.check s =
      ((assignmentTargets s).eraseDups.filter fun x => 2 ≤ (assignmentPlaces s x).card).map
        fun x => Rule.multipleAssignments.issue (repeatedTarget x (assignmentPlaces s x).card) := by
  rw [Rule.check, Rule.findings, assignmentFindings, assignmentCounts]
  simp only [List.filter_map, List.map_map, count_assignmentTargets]
  rfl

/-- **The counts of assignments are exact.** A name is counted as often as there are places at which
it is assigned. The targets are listed by their first places, and are identifiers of the source. The
rule has one issue for each target with at least two places, in this order, which shows the name and
the number. -/
theorem repeated_assignments_exact (s : List Char) :
    (∀ x, ((assignmentCounts s).lookup x).getD 0 = (assignmentPlaces s x).card) ∧
    InOrder (AssignedAt s) ((assignmentCounts s).map (·.1)) ∧
    (∀ x ∈ (assignmentCounts s).map (·.1), x ∈ identifiers s) ∧
    Rule.multipleAssignments.check s =
      (((assignmentCounts s).map (·.1)).filter fun x => 2 ≤ (assignmentPlaces s x).card).map
        fun x => Rule.multipleAssignments.issue ⟨none, "Signal '" ++ String.ofList x ++
          "' assigned multiple times (" ++ natText (assignmentPlaces s x).card ++
          " assignments)"⟩ := by
  rw [map_fst_assignmentCounts]
  have hinOrder := inOrder_assignmentTargets s
  refine ⟨?_, hinOrder, ?_, check_multipleAssignments s⟩
  · intro x
    rw [lookup_assignmentCounts, count_assignmentTargets]
  · intro x hx
    obtain ⟨i, hi⟩ := (hinOrder.mem_iff x).1 hx
    exact ((inOrder_identifiers s).mem_iff x).2 ⟨i, hi.identifierAt⟩

end HdlReview.Lint
