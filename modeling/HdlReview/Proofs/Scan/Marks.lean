import HdlReview.Proofs.Scan.Identifiers

/-!
# Marks of assignments

A blocking assignment is marked by an equals sign, a non-blocking one by `<=`. A mark on its own is a
matter of the signs around it: an equals sign is a mark just if it is part of no comparison. An
assignment is an identifier with blanks and a mark behind it, and no further equals sign behind the
mark. The search takes no part of a word for the identifier, and no assignment starts inside another.

## Main definitions

* `LoneEquals s`: an equals sign that is part of no longer mark
* `AssignedAt s x i`: the identifier `x` is assigned at the place `i`

## Main results

* `contains_nonBlocking_iff`, `contains_blocking_iff`: the marks on their own
* `capturedAt_assignment_iff`, `exposed_assignment`: the pattern of assignments
-/

namespace HdlReview.Scan

open HdlReview.Text

variable {before : Option Char} {i : Nat} {s x mark : List Char} {h : Hit}

/-! ## Marks on their own -/

/-- **A lone equals sign**: a maximal run of equals signs that is one long and has none of `<`, `>`
and `!` before it. -/
def LoneEquals (s : List Char) : Prop :=
  ∃ a run b, s = a ++ (run ++ b) ∧ IsRun (· == '=') run ∧ a.getLast? ≠ some '=' ∧
    b.head? ≠ some '=' ∧ run.length = 1 ∧
    a.getLast? ≠ some '<' ∧ a.getLast? ≠ some '>' ∧ a.getLast? ≠ some '!'

theorem any_joinsEquals_eq_false_iff :
    before.any joinsEquals = false ↔
      before ≠ some '<' ∧ before ≠ some '>' ∧ before ≠ some '=' ∧ before ≠ some '!' := by
  cases before with
  | none => simp
  | some c => simp [joinsEquals, and_assoc]

theorem blockingHit?_eq_some_iff :
    blockingHit? before s = some h ↔ ∃ t, s = '=' :: t ∧ before.any joinsEquals = false ∧
      t.head? ≠ some '=' ∧ h = ⟨['='], []⟩ := by
  constructor
  · intro hh
    rw [blockingHit?.eq_def] at hh
    split at hh
    · next t =>
      split at hh
      · cases hh
      · next hnot =>
        simp only [Bool.or_eq_true, beq_iff_eq, not_or, Bool.not_eq_true] at hnot
        exact ⟨t, rfl, hnot.1, hnot.2, (Option.some.inj hh).symm⟩
    · cases hh
  · rintro ⟨t, rfl, hbefore, hhead, rfl⟩
    simp [blockingHit?, hbefore, hhead]

/-- **The pattern of blocking assignments** is contained just if there is a lone equals sign. -/
theorem contains_blocking_iff : contains .blocking s = true ↔ LoneEquals s := by
  rw [contains_iff_exists_hit]
  constructor
  · rintro ⟨a, c, b, h, rfl, hh⟩
    obtain ⟨t, he, hbefore, hhead, -⟩ := blockingHit?_eq_some_iff.1 hh
    obtain ⟨rfl, rfl⟩ := List.cons.inj he
    rw [behind_none_eq_getLast?, any_joinsEquals_eq_false_iff] at hbefore
    obtain ⟨hless, hgreater, hequals, hnot⟩ := hbefore
    exact ⟨a, ['='], b, rfl, ⟨by simp, by simp⟩, hequals, hhead, rfl, hless, hgreater, hnot⟩
  · rintro ⟨a, run, b, rfl, hrun, hequals, hhead, hlen, hless, hgreater, hnot⟩
    obtain ⟨c, rfl⟩ := List.length_eq_one_iff.1 hlen
    obtain rfl : c = '=' := by simpa using hrun.all c (List.mem_singleton_self c)
    refine ⟨a, '=', b, ⟨['='], []⟩, rfl, blockingHit?_eq_some_iff.2 ⟨b, rfl, ?_, hhead, rfl⟩⟩
    rw [behind_none_eq_getLast?, any_joinsEquals_eq_false_iff]
    exact ⟨hless, hgreater, hequals, hnot⟩

theorem nonBlockingHit?_eq_some_iff :
    nonBlockingHit? s = some h ↔ ∃ t, s = '<' :: '=' :: t ∧ h = ⟨['<', '='], []⟩ := by
  constructor
  · intro hh
    rw [nonBlockingHit?.eq_def] at hh
    split at hh
    · next t => exact ⟨t, rfl, (Option.some.inj hh).symm⟩
    · cases hh
  · rintro ⟨t, rfl, rfl⟩
    rfl

/-- **The pattern of non-blocking assignments** is contained just if its mark is. -/
theorem contains_nonBlocking_iff : contains .nonBlocking s = true ↔ ['<', '='] <:+: s := by
  rw [contains_iff_exists_hit]
  constructor
  · rintro ⟨a, c, b, h, rfl, hh⟩
    obtain ⟨t, he, -⟩ := nonBlockingHit?_eq_some_iff.1 hh
    exact ⟨a, t, by rw [he]; simp⟩
  · rintro ⟨a, b, rfl⟩
    refine ⟨a, '<', '=' :: b, ⟨['<', '='], []⟩, by simp, ?_⟩
    exact nonBlockingHit?_eq_some_iff.2 ⟨b, rfl, rfl⟩

/-! ## The pattern of assignments -/

/-- The marks of assignments. -/
def assignmentMarks : List (List Char) :=
  [['='], ['<', '=']]

/-- **An assignment at a place**: an identifier that is a whole word, blanks, and a mark behind
which there is no further equals sign. -/
def AssignedAt (s x : List Char) (i : Nat) : Prop :=
  isIdentifier x = true ∧ ∃ gap mark rest, WordAt s x i (gap ++ (mark ++ rest)) ∧
    (∀ c ∈ gap, isBlank c = true) ∧ mark ∈ assignmentMarks ∧ rest.head? ≠ some '='

theorem AssignedAt.identifierAt (hx : AssignedAt s x i) : IdentifierAt s x i := by
  obtain ⟨hident, gap, mark, rest, hw, -⟩ := hx
  exact ⟨hident, _, hw⟩

theorem assignmentMark?_eq_some_iff :
    assignmentMark? s = some mark ↔
      mark ∈ assignmentMarks ∧ ∃ rest, s = mark ++ rest ∧ rest.head? ≠ some '=' := by
  constructor
  · intro hs
    rw [assignmentMark?.eq_def] at hs
    split at hs
    · next rest =>
      split at hs
      · cases hs
      · next hhead =>
        obtain rfl := Option.some.inj hs
        exact ⟨by simp [assignmentMarks], rest, rfl, by simpa using hhead⟩
    · next rest =>
      split at hs
      · cases hs
      · next hhead =>
        obtain rfl := Option.some.inj hs
        exact ⟨by simp [assignmentMarks], rest, rfl, by simpa using hhead⟩
    · cases hs
  · rintro ⟨hmark, rest, rfl, hhead⟩
    have hnot : (rest.head? == some '=') = false := by simpa using hhead
    rcases List.mem_cons.1 hmark with rfl | hmark
    · simp [assignmentMark?, hnot]
    · obtain rfl := List.mem_singleton.1 hmark
      simp [assignmentMark?, hnot]

/-- Blanks and a mark hold no word character. -/
theorem isWord_of_mem_gap_mark {gap : List Char} {c : Char} (hgap : ∀ c ∈ gap, isBlank c = true)
    (hmark : mark ∈ assignmentMarks) (hc : c ∈ gap ++ mark) : isWord c = false := by
  rcases List.mem_append.1 hc with hc | hc
  · exact isWord_eq_false_of_isBlank (hgap c hc)
  · have hmarks : (assignmentMarks.all fun m => m.all fun d => !isWord d) = true := by decide
    simpa using List.all_eq_true.1 (List.all_eq_true.1 hmarks mark hmark) c hc

theorem ne_nil_of_mem_assignmentMarks (hmark : mark ∈ assignmentMarks) : mark ≠ [] := by
  rintro rfl
  exact absurd hmark (by decide)

/-- A mark does not start with a blank. -/
theorem isBlank_head_of_mem_assignmentMarks {rest : List Char} (hmark : mark ∈ assignmentMarks) :
    ∀ c, (mark ++ rest).head? = some c → isBlank c = false := by
  rcases List.mem_cons.1 hmark with rfl | hmark
  · rintro c ⟨⟩
    rfl
  · obtain rfl := List.mem_singleton.1 hmark
    rintro c ⟨⟩
    rfl

/-- The target of an assignment does not go on behind its name. -/
theorem isWord_head_gap_mark {gap rest : List Char} (hgap : ∀ c ∈ gap, isBlank c = true)
    (hmark : mark ∈ assignmentMarks) :
    ∀ c, (gap ++ (mark ++ rest)).head? = some c → isWord c = false := by
  intro c hc
  have hne : gap ++ mark ≠ [] := by simp [ne_nil_of_mem_assignmentMarks hmark]
  rw [← List.append_assoc, List.head?_append_of_ne_nil _ hne] at hc
  exact isWord_of_mem_gap_mark hgap hmark (List.mem_of_mem_head? hc)

/-- **What the pattern of assignments matches**: an identifier, blanks and a mark. -/
theorem assignmentHit?_eq_some_iff :
    assignmentHit? before s = some h ↔ ∃ name gap mark rest,
      s = name ++ (gap ++ (mark ++ rest)) ∧ insideWord before = false ∧
      isIdentifier name = true ∧ (∀ c ∈ gap, isBlank c = true) ∧ mark ∈ assignmentMarks ∧
      rest.head? ≠ some '=' ∧ h = ⟨name ++ gap ++ mark, [name]⟩ := by
  rw [assignmentHit?]
  simp only [Option.ite_none_right_eq_some, Bool.and_eq_true, Bool.not_eq_true', and_assoc,
    Option.map_eq_some_iff]
  constructor
  · rintro ⟨hin, hident, mark, hmark, rfl⟩
    obtain ⟨hmark, rest, hrest, hhead⟩ := assignmentMark?_eq_some_iff.1 hmark
    refine ⟨_, (s.dropWhile isWord).takeWhile isBlank, mark, rest, ?_, hin, hident, ?_, hmark,
      hhead, rfl⟩
    · rw [← hrest]
      exact word_blanks_eq s
    · exact fun c hc => List.mem_takeWhile_imp hc
  · rintro ⟨name, gap, mark, rest, rfl, hin, hident, hgap, hmark, hhead, rfl⟩
    -- the name ends at the blanks or at the mark, and the blanks end at the mark
    have hrun := isRun_of_isIdentifier hident
    obtain ⟨hlead, hdrop⟩ := span_of_stop (s := gap ++ (mark ++ rest)) hrun.all
      (isWord_head_gap_mark hgap hmark)
    obtain ⟨hblanks, hback⟩ :=
      span_of_stop (s := mark ++ rest) hgap (isBlank_head_of_mem_assignmentMarks hmark)
    rw [leadingWord, hlead, hdrop, hblanks, hback]
    exact ⟨hin, hident, mark, assignmentMark?_eq_some_iff.2 ⟨hmark, rest, rfl, hhead⟩, rfl⟩

/-- **The pattern of assignments** matches just the assignments, and captures their targets. -/
theorem capturedAt_assignment_iff : CapturedAt .assignment s i x ↔ AssignedAt s x i := by
  constructor
  · rintro ⟨text, a, b, rfl, rfl, hh⟩
    obtain ⟨name, gap, mark, rest, rfl, hin, hident, hgap, hmark, hhead, he⟩ :=
      assignmentHit?_eq_some_iff.1 hh
    obtain rfl : x = name := eq_of_hit_eq he
    rw [behind_none_eq_getLast?, insideWord_eq_false_iff] at hin
    refine ⟨hident, gap, mark, rest, ⟨a, rfl, rfl, ?_, hin, ?_⟩, hgap, hmark, hhead⟩
    · exact isRun_of_isIdentifier hident
    · exact isWord_head_gap_mark hgap hmark
  · rintro ⟨hident, gap, mark, rest, ⟨a, rfl, rfl, -, hin, -⟩, hgap, hmark, hhead⟩
    refine ⟨x ++ gap ++ mark, a, _, rfl, rfl, assignmentHit?_eq_some_iff.2
      ⟨x, gap, mark, rest, rfl, ?_, hident, hgap, hmark, hhead, rfl⟩⟩
    rwa [behind_none_eq_getLast?, insideWord_eq_false_iff]

theorem captures_assignment : Pattern.assignment.Captures := by
  intro before s h hh
  obtain ⟨name, gap, mark, rest, -, -, -, -, -, -, rfl⟩ := assignmentHit?_eq_some_iff.1 hh
  exact ⟨name, rfl⟩

theorem barren_assignment_of_not_isWord {a : List Char} (ha : ∀ c ∈ a, isWord c = false) :
    Barren .assignment before a s := by
  apply barren_of_isSuffix
  intro before y hy hsuffix
  obtain ⟨c, y, rfl⟩ := List.exists_cons_of_ne_nil hy
  have hlead : leadingWord (c :: (y ++ s)) = [] :=
    leadingWord_cons (ha c (hsuffix.subset (List.mem_cons_self ..)))
  change assignmentHit? before (c :: (y ++ s)) = none
  rw [assignmentHit?, hlead]
  simp [isIdentifier]

/-- **No assignment starts inside another**: behind the first character of its target there is the
rest of a word, and behind that there is no word character. -/
theorem exposed_assignment : Pattern.assignment.Exposed := by
  intro before s h hh
  obtain ⟨name, gap, mark, rest, rfl, -, hident, hgap, hmark, -, rfl⟩ :=
    assignmentHit?_eq_some_iff.1 hh
  have hrun := isRun_of_isIdentifier hident
  obtain ⟨c, w, rfl⟩ := List.exists_cons_of_ne_nil hrun.ne_nil
  refine ⟨c, w ++ (gap ++ mark), rest, by simp, by simp, ?_⟩
  apply barren_append
  · exact barren_inside_word (p := .assignment) nofun (hrun.all c (List.mem_cons_self ..))
      fun d hd => hrun.all d (List.mem_cons_of_mem c hd)
  · apply barren_assignment_of_not_isWord
    intro d hd
    exact isWord_of_mem_gap_mark hgap hmark hd

end HdlReview.Scan
