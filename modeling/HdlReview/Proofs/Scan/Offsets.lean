import HdlReview.Proofs.Scan.Layout
import Mathlib.Algebra.GroupWithZero.Nat

/-!
# Offsets and their lines

A source is cut into lines at its line feeds, and the number of a line is found by counting line
feeds. The two computations describe one layout. A line spans the places from its start up to the
line feed behind it, or up to the end of the source, and the next line starts right behind the line
feed. So the spans cover all places, and no two of them share one: the number that is counted for a
place is the number of the only line in whose span it lies, be the place on a line feed, behind the
last one, or in an empty source. An offset outside of the source means one of its places.

## Main definitions

* `OnLine s n o`: the place `o` lies in the span of the line number `n`

## Main results

* `lineStart_eq_sum`, `lineStart_succ`: where lines start
* `OnLine.le`: the spans follow each other
* `lineOf_eq_iff`: the number of a place is that of the line in whose span it lies
* `layout_exact`: lines and line numbers, for all offsets
-/

namespace HdlReview.Scan

variable {s line : List Char} {n k o o' : Nat}

/-! ## Spans of lines -/

/-- **A place in the span of a line**: not before its start and not behind its end, which is the place
of its line feed or the end of the source. -/
def OnLine (s : List Char) (n o : Nat) : Prop :=
  1 ≤ n ∧ ∃ line, (lines s)[n - 1]? = some line ∧ lineStart s n ≤ o ∧ o ≤ lineStart s n + line.length

theorem length_ended (front : List (List Char)) :
    (ended front).length = (front.map List.length).sum + front.length := by
  induction front with
  | nil => rfl
  | cons line front ih =>
    rw [ended, List.flatMap_cons, List.length_append, ← ended, ih]
    simp only [List.length_append, List.length_cons, List.length_nil, List.map_cons, List.sum_cons]
    omega

/-- **The start of a line** is the sum of the lengths of the lines before it, and one for each. -/
theorem lineStart_eq_sum (hn : n ≤ (lines s).length) :
    lineStart s (n + 1) = (((lines s).take n).map List.length).sum + n := by
  rw [lineStart, Nat.add_sub_cancel, length_ended, List.length_take, Nat.min_eq_left hn]

theorem lineStart_mono (h : n ≤ k) : lineStart s n ≤ lineStart s k := by
  obtain ⟨back, hback⟩ : (lines s).take (n - 1) <+: (lines s).take (k - 1) :=
    List.take_prefix_take_left (Nat.sub_le_sub_right h 1)
  rw [lineStart, lineStart, ← hback, ended, ended, List.flatMap_append, List.length_append]
  exact Nat.le_add_right ..

/-- **The next line** starts behind the line feed of a line. -/
theorem lineStart_succ (hn : 1 ≤ n) (hline : (lines s)[n - 1]? = some line) :
    lineStart s (n + 1) = lineStart s n + (line.length + 1) := by
  have htake : (lines s).take n = (lines s).take (n - 1) ++ [line] := by
    rw [← Nat.sub_add_cancel hn, List.take_add_one, hline, Nat.add_sub_cancel]
    rfl
  rw [lineStart, lineStart, Nat.add_sub_cancel, htake]
  simp [ended]

/-- **The spans follow each other**: a place is not on a later line than a place behind it. -/
theorem OnLine.le (hn : OnLine s n o) (hk : OnLine s k o') (h : o ≤ o') : n ≤ k := by
  obtain ⟨-, -, -, hstart, -⟩ := hn
  obtain ⟨hk, line, hline, -, hend⟩ := hk
  by_contra hlt
  -- otherwise the later place lies before the start of the line of the earlier one
  have hnext : lineStart s (k + 1) ≤ lineStart s n := lineStart_mono (Nat.lt_of_not_le hlt)
  rw [lineStart_succ hk hline] at hnext
  omega

theorem onLine_lineOf (ho : o ≤ s.length) : OnLine s (lineOf s o) o := by
  obtain ⟨u, hline, hcolumn, -⟩ := exists_line_of_place (s.take o) (s.drop o)
  rw [List.take_append_drop, List.length_take, Nat.min_eq_left ho] at hline hcolumn
  refine ⟨one_le_lineOf s o, _, hline, by omega, ?_⟩
  rw [List.length_append]
  omega

/-- **The number of a place** is that of the only line in whose span it lies. -/
theorem lineOf_eq_iff (ho : o ≤ s.length) : lineOf s o = n ↔ OnLine s n o := by
  constructor
  · rintro rfl
    exact onLine_lineOf ho
  · intro hn
    have hline := onLine_lineOf ho
    exact Nat.le_antisymm (hline.le hn (Nat.le_refl o)) (hn.le hline (Nat.le_refl o))

/-! ## Offsets outside of a source -/

variable (s)

/-- The number of an offset is that of the place that it means. -/
theorem lineOf_place (offset : Int) : lineOf s (place s.length offset) = lineOf s offset :=
  lineOf_natCast s _

theorem lineOf_of_length_le {offset : Int} (h : s.length ≤ offset) :
    lineOf s offset = lineOf s s.length := by
  have hplace : s.length ≤ place s.length offset := by
    unfold place
    split <;> omega
  rw [← lineOf_place, lineOf_natCast, lineOf_natCast, List.take_length,
    List.take_of_length_le hplace]

theorem lineOf_neg {distance : Int} (h : 0 < distance) :
    lineOf s (-distance) = lineOf s (max (s.length - distance) 0) := by
  have hplace : place s.length (-distance) = place s.length (max (s.length - distance) 0) := by
    unfold place
    split <;> split <;> omega
  rw [← lineOf_place, hplace, lineOf_place]

/-- Offsets from the front, and likewise those from the end, have line numbers in their order. -/
theorem lineOf_le_lineOf {offset offset' : Int} (h : offset ≤ offset')
    (hside : 0 ≤ offset ∨ offset' < 0) : lineOf s offset ≤ lineOf s offset' := by
  have hplace : place s.length offset ≤ place s.length offset' := by
    unfold place
    split <;> split <;> omega
  rw [← lineOf_place s offset, ← lineOf_place s offset']
  exact lineOf_mono hplace

/-- **Lines and line numbers describe the same layout.** The lines with line feeds between them are
the source, and have no line feed in them. A line starts behind the lines before it and one line
feed for each. The number of any offset is that of a line, and the number of a place from the
beginning to the end of the source is that of the only line in whose span it lies. Line numbers do
not decrease from one offset to a later one, when both are counted from the same end of the source.
An offset beyond the end has the number of the end, and a negative one that of the place at its
distance from the end, or of the beginning if there is none. -/
theorem layout_exact :
    ['\n'].intercalate (lines s) = s ∧ (∀ line ∈ lines s, '\n' ∉ line) ∧
    (∀ n ≤ (lines s).length,
      lineStart s (n + 1) = (((lines s).take n).map List.length).sum + n) ∧
    (∀ o : Int, 1 ≤ lineOf s o ∧ lineOf s o ≤ (lines s).length) ∧
    (∀ o : Nat, o ≤ s.length → ∀ n, lineOf s o = n ↔ OnLine s n o) ∧
    (∀ o o' : Int, o ≤ o' → 0 ≤ o ∨ o' < 0 → lineOf s o ≤ lineOf s o') ∧
    (∀ o : Int, s.length ≤ o → lineOf s o = lineOf s s.length) ∧
    ∀ k : Int, 0 < k → lineOf s (-k) = lineOf s (max (s.length - k) 0) := by
  refine ⟨List.intercalate_splitOn '\n', ?_, ?_, ?_, ?_, ?_, ?_, ?_⟩
  · exact fun line hline => newline_not_mem_of_mem_lines hline
  · exact fun n hn => lineStart_eq_sum hn
  · exact fun o => ⟨one_le_lineOf s o, lineOf_le_length_lines s o⟩
  · exact fun o ho n => lineOf_eq_iff ho
  · exact fun o o' h hside => lineOf_le_lineOf s h hside
  · exact fun o h => lineOf_of_length_le s h
  · exact fun k hk => lineOf_neg s hk

/-- Two lines, an empty one between them, and an empty one behind the last line feed. -/
def fedSource : List Char :=
  "ab\n\nc\n".toList

/-- The place on the first line feed, the end of the source, the same from beyond the end, and an
offset from the end that goes back behind the beginning. -/
theorem layout_exact_fedSource :
    lines fedSource = ["ab".toList, [], "c".toList, []] ∧ lineStart fedSource 4 = 6 ∧
    OnLine fedSource 1 2 ∧ OnLine fedSource 2 3 ∧ OnLine fedSource 4 6 ∧
    lineOf fedSource 2 ≤ lineOf fedSource 3 ∧ lineOf fedSource (-4) ≤ lineOf fedSource (-1) ∧
    lineOf fedSource 9 = lineOf fedSource 6 ∧
    lineOf fedSource (-2) = lineOf fedSource 4 ∧ lineOf fedSource (-9) = lineOf fedSource 0 := by
  obtain ⟨-, -, hstart, -, hspan, hmono, hbeyond, hneg⟩ := layout_exact fedSource
  refine ⟨by decide, (hstart 3 (by decide)).trans (by decide), ?_, ?_, ?_, ?_, ?_, ?_, ?_, ?_⟩
  · exact (hspan 2 (by decide) 1).1 (by decide)
  · exact (hspan 3 (by decide) 2).1 (by decide)
  · exact (hspan 6 (by decide) 4).1 (by decide)
  · exact hmono 2 3 (by decide) (.inl (by decide))
  · exact hmono (-4) (-1) (by decide) (.inr (by decide))
  · exact hbeyond 9 (by decide)
  · exact hneg 2 (by decide)
  · exact hneg 9 (by decide)

end HdlReview.Scan
