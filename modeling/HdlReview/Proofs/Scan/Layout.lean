import HdlReview.Proofs.Scan.Identifiers
import HdlReview.Proofs.Scan.Lines

/-!
# The layout of a source

A source is its lines with line feeds between them. Seen from one of the lines, it is the lines
before, each with a line feed behind it, then the line, then the lines that follow, each with a line
feed before it. From this view everything about places and lines is read off: a line starts where
the lines before it end, a place is on the line whose number is one more than the line feeds before
the place, and what stands at a place on the way to the next line feed stands on that line.

A line feed is no word character. So it ends a word like the end of a source does, and a whole word
of a line taken on its own is a whole word of the source on that line.

## Main definitions

* `ended front`, `begun back`: lines with a line feed behind each, and before each
* `lineStart s n`: the place at which a line starts
* `WordOnLine s w n`: a whole word of a line taken on its own

## Main results

* `lines_eq_iff`: a source as seen from one of its lines
* `lineOf_length`, `lineOf_mono`: line numbers of places
* `exists_line_of_place`, `exists_line_of_text`: the line of a place, and what stands at its column
* `wordOnLine_iff`: the whole words of the lines are those of the source
-/

namespace HdlReview.Scan

open HdlReview.Text

variable {s w : List Char} {n : Nat} {line : List Char} {front back : List (List Char)}

/-! ## A source as its lines -/

/-- Lines with a line feed behind each. -/
def ended (front : List (List Char)) : List Char :=
  front.flatMap (· ++ ['\n'])

/-- Lines with a line feed before each. -/
def begun (back : List (List Char)) : List Char :=
  back.flatMap ('\n' :: ·)

theorem intercalate_eq (front : List (List Char)) (line : List Char) (back : List (List Char)) :
    ['\n'].intercalate (front ++ line :: back) = ended front ++ (line ++ begun back) := by
  induction front with
  | nil =>
    rw [List.nil_append, ended, List.flatMap_nil, List.nil_append]
    induction back generalizing line with
    | nil => simp [begun]
    | cons next back ih =>
      rw [List.intercalate_cons_cons, ih]
      simp [begun]
  | cons first front ih =>
    rw [List.cons_append, List.intercalate_cons_of_ne_nil (by simp), ih]
    simp [ended]

theorem newline_not_mem_of_mem_lines (h : line ∈ lines s) : '\n' ∉ line := by
  induction s generalizing line with
  | nil =>
    obtain rfl : line = [] := by simpa [lines] using h
    simp
  | cons c s ih =>
    rw [lines, List.splitOn_cons_eq_if_modifyHead] at h
    split at h
    · rcases List.mem_cons.1 h with rfl | h
      · simp
      · exact ih h
    · next hc =>
      obtain ⟨first, rest, hs⟩ := List.exists_cons_of_ne_nil (List.splitOn_ne_nil '\n' s)
      rw [hs, List.modifyHead_cons] at h
      have hline : ∀ l ∈ first :: rest, '\n' ∉ l := fun l hl => ih (by rwa [lines, hs])
      rcases List.mem_cons.1 h with rfl | h
      · intro hfeed
        rcases List.mem_cons.1 hfeed with rfl | hfeed
        · exact hc (by simp)
        · exact hline first (List.mem_cons_self ..) hfeed
      · exact hline line (List.mem_cons_of_mem first h)

/-- **A source as seen from one of its lines**. -/
theorem lines_eq_iff :
    lines s = front ++ line :: back ↔
      s = ended front ++ (line ++ begun back) ∧ ∀ l ∈ front ++ line :: back, '\n' ∉ l := by
  rw [← intercalate_eq]
  constructor
  · intro h
    rw [← h]
    refine ⟨(List.intercalate_splitOn '\n').symm, ?_⟩
    exact fun l hl => newline_not_mem_of_mem_lines hl
  · rintro ⟨rfl, hfeed⟩
    exact List.splitOn_intercalate '\n' hfeed (by simp)

theorem exists_lines_of_getElem? {k : Nat} (h : (lines s)[k]? = some line) :
    ∃ front back, lines s = front ++ line :: back ∧ front.length = k := by
  obtain ⟨hk, rfl⟩ := List.getElem?_eq_some_iff.1 h
  refine ⟨(lines s).take k, (lines s).drop (k + 1), ?_, by simp; omega⟩
  rw [List.getElem_cons_drop, List.take_append_drop]

/-- The last line of a text, and the text before it. -/
theorem exists_lines_eq_concat (x : List Char) :
    ∃ front u, lines x = front ++ [u] ∧ x = ended front ++ u := by
  have hne : lines x ≠ [] := List.splitOn_ne_nil '\n' x
  have hlast : lines x = (lines x).dropLast ++ [(lines x).getLast hne] :=
    (List.dropLast_append_getLast hne).symm
  refine ⟨_, _, hlast, ?_⟩
  simpa [begun] using (lines_eq_iff.1 hlast).1

/-- The first line of a text goes up to its first line feed. -/
theorem exists_lines_eq_cons (y : List Char) :
    ∃ back, lines y = y.takeWhile (· != '\n') :: back := by
  induction y with
  | nil => exact ⟨[], rfl⟩
  | cons c y ih =>
    obtain ⟨back, hback⟩ := ih
    rw [lines] at hback ⊢
    rw [List.splitOn_cons_eq_if_modifyHead, hback]
    by_cases hc : c = '\n'
    · simp [hc]
    · simp [hc]

theorem takeWhile_append_of_not_mem (hw : '\n' ∉ w) (t : List Char) :
    (w ++ t).takeWhile (· != '\n') = w ++ t.takeWhile (· != '\n') := by
  apply List.takeWhile_append_of_pos
  intro c hc
  rw [bne_iff_ne]
  rintro rfl
  exact hw hc

/-- The last line of a text goes on with the first line of the text behind it. -/
theorem lines_append {x y u v : List Char} (hx : lines x = front ++ [u])
    (hy : lines y = v :: back) : lines (x ++ y) = front ++ (u ++ v) :: back := by
  obtain ⟨hx, hfront⟩ := lines_eq_iff.1 hx
  obtain ⟨hy, hback⟩ := lines_eq_iff.1 (hy.trans (List.nil_append _).symm)
  refine lines_eq_iff.2 ⟨?_, ?_⟩
  · rw [hx, hy]
    simp [ended, begun]
  · intro l hl
    rcases List.mem_append.1 hl with hl | hl
    · exact hfront l (List.mem_append_left _ hl)
    · rcases List.mem_cons.1 hl with rfl | hl
      · rw [List.mem_append, not_or]
        exact ⟨hfront u (by simp), hback v (by simp)⟩
      · exact hback l (by simp [hl])

/-! ## Line numbers -/

/-- **The line number of a place** is the number of lines of the text before it. -/
theorem lineOf_length (x y : List Char) : lineOf (x ++ y) x.length = (lines x).length := by
  rw [lineOf_natCast, List.take_left, length_lines]

theorem lineOf_mono {i j : Nat} (h : i ≤ j) : lineOf s i ≤ lineOf s j := by
  rw [lineOf_natCast, lineOf_natCast]
  have hsub : (s.take i).Sublist (s.take j) := (List.take_prefix_take_left h).sublist
  exact Nat.add_le_add_right (hsub.count_le '\n') 1

/-- **The place at which a line starts**: the length of the lines before it, with their line
feeds. -/
def lineStart (s : List Char) (n : Nat) : Nat :=
  (ended ((lines s).take (n - 1))).length

theorem lineStart_eq (h : lines s = front ++ line :: back) :
    lineStart s (front.length + 1) = (ended front).length := by
  rw [lineStart, h, Nat.add_sub_cancel, List.take_left]

/-- **The line of a place**: it has the number of the place, and the place is at a column of it,
from where on the line is what stands at the place up to the next line feed. -/
theorem exists_line_of_place (x y : List Char) :
    ∃ u, (lines (x ++ y))[lineOf (x ++ y) x.length - 1]? = some (u ++ y.takeWhile (· != '\n')) ∧
      lineStart (x ++ y) (lineOf (x ++ y) x.length) + u.length = x.length ∧ u <:+ x := by
  obtain ⟨front, u, hx, hxu⟩ := exists_lines_eq_concat x
  obtain ⟨back, hy⟩ := exists_lines_eq_cons y
  have hlines := lines_append hx hy
  have hnumber : lineOf (x ++ y) x.length = front.length + 1 := by
    rw [lineOf_length, hx, List.length_append, List.length_singleton]
  rw [hnumber]
  refine ⟨u, ?_, ?_, ⟨ended front, hxu.symm⟩⟩
  · rw [hlines, Nat.add_sub_cancel, List.getElem?_append_right (Nat.le_refl _), Nat.sub_self]
    rfl
  · rw [lineStart_eq hlines, ← List.length_append, ← hxu]

/-- **A text without line feeds** stands on the line of its place, at the column of the place. -/
theorem exists_line_of_text (hw : '\n' ∉ w) (x t : List Char) :
    ∃ line, (lines (x ++ (w ++ t)))[lineOf (x ++ (w ++ t)) x.length - 1]? = some line ∧
      lineStart (x ++ (w ++ t)) (lineOf (x ++ (w ++ t)) x.length) ≤ x.length ∧
      w <+: line.drop (x.length - lineStart (x ++ (w ++ t)) (lineOf (x ++ (w ++ t)) x.length)) := by
  obtain ⟨u, hline, hcolumn, -⟩ := exists_line_of_place x (w ++ t)
  generalize lineStart (x ++ (w ++ t)) (lineOf (x ++ (w ++ t)) x.length) = start at *
  refine ⟨_, hline, by omega, t.takeWhile (· != '\n'), ?_⟩
  rw [← hcolumn, Nat.add_sub_cancel_left, List.drop_left, takeWhile_append_of_not_mem hw]

/-! ## Whole words of lines -/

/-- **A whole word of a line** taken on its own. -/
def WordOnLine (s w : List Char) (n : Nat) : Prop :=
  1 ≤ n ∧ ∃ line, (lines s)[n - 1]? = some line ∧ WholeWord line w

theorem getLast?_ended {c : Char} (h : (ended front).getLast? = some c) : c = '\n' := by
  rw [ended, List.getLast?_flatMap] at h
  obtain ⟨l, -, hl⟩ := List.exists_of_findSome?_eq_some h
  simpa using hl.symm

theorem head?_begun {c : Char} (h : (begun back).head? = some c) : c = '\n' := by
  rw [begun, List.head?_flatMap] at h
  obtain ⟨l, -, hl⟩ := List.exists_of_findSome?_eq_some h
  simpa using hl.symm

theorem newline_not_mem_of_isRun (hw : IsRun isWord w) : '\n' ∉ w := by
  intro hc
  exact absurd (hw.all _ hc) (by decide)

/-- A whole word of the source is one of its line. -/
theorem WordAt.wordOnLine {i : Nat} {rest : List Char} (hat : WordAt s w i rest) :
    WordOnLine s w (lineOf s i) := by
  obtain ⟨a, rfl, rfl, hw, ha, hrest⟩ := hat
  obtain ⟨u, hline, -, hu⟩ := exists_line_of_place a (w ++ rest)
  refine ⟨one_le_lineOf _ _, _, hline, u, rest.takeWhile (· != '\n'), ?_, hw, ?_, ?_⟩
  · rw [takeWhile_append_of_not_mem (newline_not_mem_of_isRun hw), List.append_assoc]
  · intro c hc
    obtain ⟨t, rfl⟩ := hu
    exact ha c (List.mem_getLast?_append_of_mem_getLast? hc)
  · intro c hc
    rw [List.head?_takeWhile] at hc
    exact hrest c (Option.eq_some_of_filter_eq_some hc)

/-- A whole word of a line is one of the source, on that line. -/
theorem WordOnLine.exists_wordAt (hword : WordOnLine s w n) :
    ∃ i rest, WordAt s w i rest ∧ lineOf s i = n := by
  obtain ⟨hn, line, hline, u, v, rfl, hw, hu, hv⟩ := hword
  obtain ⟨front, back, hlines, hfront⟩ := exists_lines_of_getElem? hline
  obtain ⟨hs, hfeed⟩ := lines_eq_iff.1 hlines
  have heq : s = (ended front ++ u) ++ (w ++ (v ++ begun back)) := by
    rw [hs]
    simp
  refine ⟨(ended front ++ u).length, v ++ begun back, ⟨ended front ++ u, heq, rfl, hw, ?_, ?_⟩, ?_⟩
  · -- before the word stands a character of the line, or a line feed
    intro c hc
    rw [List.getLast?_append, Option.or_eq_some_iff] at hc
    rcases hc with hc | ⟨-, hc⟩
    · exact hu c hc
    · rw [getLast?_ended hc]
      decide
  · intro c hc
    rw [List.head?_append, Option.or_eq_some_iff] at hc
    rcases hc with hc | ⟨-, hc⟩
    · exact hv c hc
    · rw [head?_begun hc]
      decide
  · -- up to the word there are the lines before and the front of the line itself
    have hbefore : lines (ended front ++ u) = front ++ u :: [] := by
      refine lines_eq_iff.2 ⟨by simp [begun], ?_⟩
      intro l hl
      rcases List.mem_append.1 hl with hl | hl
      · exact hfeed l (List.mem_append_left _ hl)
      · obtain rfl := List.mem_singleton.1 hl
        intro hnewline
        exact hfeed _ (List.mem_append_right _ (List.mem_cons_self ..)) (by simp [hnewline])
    rw [heq, lineOf_length, hbefore, List.length_append, List.length_singleton, hfront]
    omega

/-- **The whole words of the lines** are those of the source. -/
theorem wordOnLine_iff : WordOnLine s w n ↔ ∃ i rest, WordAt s w i rest ∧ lineOf s i = n := by
  constructor
  · exact WordOnLine.exists_wordAt
  · rintro ⟨i, rest, hat, rfl⟩
    exact hat.wordOnLine

end HdlReview.Scan
