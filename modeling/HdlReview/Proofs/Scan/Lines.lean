import HdlReview.Scan.Search

/-!
# Lines and line numbers

Cutting a source at its line feeds and counting the line feeds before an offset are two views of
the same layout: a source has one line more than it has line feeds, so the number of any offset is
the number of a line.

## Main results

* `length_lines`: the number of lines
* `one_le_lineOf`, `lineOf_le_length_lines`: line numbers are between one and the number of lines
-/

namespace HdlReview.Scan

theorem length_lines (s : List Char) : (lines s).length = s.count '\n' + 1 := by
  induction s with
  | nil => rfl
  | cons c s ih =>
    rw [lines] at ih ⊢
    rw [List.splitOn_cons_eq_if_modifyHead]
    by_cases hc : c = '\n'
    · subst hc
      simp [ih]
    · simp [hc, ih]

/-- Changing characters other than line feeds changes each line by itself. -/
theorem lines_map {f : Char → Char} (hf : ∀ c, (f c == '\n') = (c == '\n')) (s : List Char) :
    lines (s.map f) = (lines s).map (List.map f) := by
  induction s with
  | nil => rfl
  | cons c s ih =>
    rw [lines, lines] at ih ⊢
    rw [List.map_cons, List.splitOn_cons_eq_if_modifyHead, List.splitOn_cons_eq_if_modifyHead, hf,
      ih]
    cases c == '\n' with
    | true => rfl
    | false => cases s.splitOn '\n' <;> rfl

theorem one_le_lineOf (s : List Char) (offset : Int) : 1 ≤ lineOf s offset :=
  Nat.le_add_left 1 _

theorem lineOf_le_length_lines (s : List Char) (offset : Int) :
    lineOf s offset ≤ (lines s).length := by
  rw [length_lines, lineOf]
  exact Nat.add_le_add_right ((List.take_sublist _ s).count_le '\n') 1

theorem lineOf_natCast (s : List Char) (n : Nat) : lineOf s n = (s.take n).count '\n' + 1 := by
  have hn : ¬ (n : Int) < 0 := by omega
  simp [lineOf, place, hn]

end HdlReview.Scan
