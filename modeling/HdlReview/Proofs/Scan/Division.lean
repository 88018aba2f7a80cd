import HdlReview.Proofs.Scan.Marks

/-!
# Sources that a character divides

A semicolon is in no identifier and in no assignment, and neither looks at what is behind it: a word
ends there as at the end of a source, an equals sign in front of it is followed by no other, and
behind it a word may start as at the beginning. So a search does not see whether a source goes on
behind a semicolon, nor whether one stands before its beginning, and the matches in a source that a
semicolon divides are those of the two parts.

## Main definitions

* `Pattern.DividedBy p c`: matches of `p` do not depend on what is on the other side of `c`
* `Match.moved d m`: a match at a place further behind

## Main results

* `findFrom_append_cons`, `findAll_append_cons`: all matches in a source that is divided
* `dividedBy_wordHit`, `dividedBy_assignment`: patterns and the characters that divide them
-/

namespace HdlReview.Scan

open HdlReview.Text

variable {p : Pattern} {c : Char} {before : Option Char} {position skip : Nat} {s : List Char}

/-! ## Matches of the parts -/

/-- **A character divides a pattern**: what is matched before it does not depend on what is behind
it, and what is matched behind it is matched at the beginning of a source as well. -/
structure Pattern.DividedBy (p : Pattern) (c : Char) : Prop where
  hit?_append : ∀ before s t, p.hit? before (s ++ c :: t) = p.hit? before s
  hit?_behind : ∀ t, p.hit? (some c) t = p.hit? none t

/-- A match at a place further behind. -/
def Match.moved (d : Nat) (m : Match) : Match :=
  { m with start := m.start + d }

theorem findFrom_moved (p : Pattern) (skip : Nat) (before : Option Char) (position d : Nat)
    (s : List Char) :
    findFrom p skip before (position + d) s =
      (findFrom p skip before position s).map (Match.moved d) := by
  fun_induction findFrom p skip before position s with
  | case1 => simp [findFrom]
  | case2 skip before position c s ih =>
    rw [findFrom, Nat.add_right_comm]
    exact ih
  | case3 before position c s h hh ih =>
    rw [findFrom, hh, Nat.add_right_comm]
    dsimp only
    rw [ih]
    rfl
  | case4 before position c s hnone ih =>
    rw [findFrom, hnone, Nat.add_right_comm]
    exact ih

namespace Pattern.DividedBy

/-- Behind the character, the search for all matches goes on as at the beginning of a source. -/
theorem findFrom_behind (hc : p.DividedBy c) (position : Nat) (t : List Char) :
    findFrom p 0 (some c) position t = findFrom p 0 none position t := by
  cases t with
  | nil => simp [findFrom]
  | cons d t => rw [findFrom, findFrom, hc.hit?_behind]

/-- No match starts at the character. -/
theorem hit?_cons (hc : p.DividedBy c) (before : Option Char) (t : List Char) :
    p.hit? before (c :: t) = none :=
  (hc.hit?_append before [] t).trans hit?_nil

/-- **The matches from a place on** are those before the character and those behind it: a match that
is going on ends before the character. -/
theorem findFrom_append_cons (hc : p.DividedBy c) (hp : p.Exposed) (hskip : skip ≤ s.length)
    (t : List Char) :
    findFrom p skip before position (s ++ c :: t) =
      findFrom p skip before position s ++ findFrom p 0 none (position + s.length + 1) t := by
  fun_induction findFrom p skip before position s with
  | case1 skip before position =>
    obtain rfl : skip = 0 := Nat.le_zero.1 hskip
    rw [List.nil_append, List.nil_append, findFrom, hc.hit?_cons]
    exact hc.findFrom_behind _ t
  | case2 skip before position d s ih =>
    rw [List.cons_append, findFrom, ih (Nat.le_of_succ_le_succ hskip), List.length_cons,
      Nat.add_assoc position 1, Nat.add_comm 1]
  | case3 before position d s h hh ih =>
    -- the match takes its text from the part before the character
    have htext : h.text.length - 1 ≤ s.length := by
      obtain ⟨e, text, rest, htext, hs, -⟩ := hp hh
      have hlen : s.length = text.length + rest.length := by simpa using congrArg List.length hs
      rw [htext, List.length_cons]
      omega
    rw [List.cons_append, findFrom, ← List.cons_append, hc.hit?_append, hh]
    dsimp only
    rw [ih htext, List.length_cons, Nat.add_assoc position 1, Nat.add_comm 1, List.cons_append]
  | case4 before position d s hnone ih =>
    rw [List.cons_append, findFrom, ← List.cons_append, hc.hit?_append, hnone]
    dsimp only
    rw [ih (Nat.zero_le _), List.length_cons, Nat.add_assoc position 1, Nat.add_comm 1]

/-- **All matches in a source that is divided** are those of the first part and, moved behind it,
those of the second. -/
theorem findAll_append_cons (hc : p.DividedBy c) (hp : p.Exposed) (s t : List Char) :
    findAll p (s ++ c :: t) =
      findAll p s ++ (findAll p t).map (Match.moved (s.length + 1)) := by
  rw [findAll, findAll, findAll, hc.findFrom_append_cons hp (Nat.zero_le _), Nat.add_assoc,
    Nat.zero_add, ← findFrom_moved, Nat.zero_add]

end Pattern.DividedBy

/-! ## Patterns that are divided -/

/-- A stretch of characters of one class ends at a character that is not of the class. -/
theorem span_append_cons {q : Char → Bool} (hc : q c = false) (s t : List Char) :
    (s ++ c :: t).takeWhile q = s.takeWhile q ∧
      (s ++ c :: t).dropWhile q = s.dropWhile q ++ c :: t := by
  induction s with
  | nil => simp [hc]
  | cons d s ih =>
    by_cases hd : q d = true
    · simp [hd, ih]
    · simp [hd]

/-- **A pattern of whole words** is divided by every character that is in no word. -/
theorem dividedBy_wordHit {accepts : List Char → Bool}
    (hhit : ∀ before s, p.hit? before s = wordHit? accepts before s) (hc : isWord c = false) :
    p.DividedBy c where
  hit?_append before s t := by
    rw [hhit, hhit, wordHit?, wordHit?, leadingWord, leadingWord, (span_append_cons hc s t).1]
  hit?_behind t := by
    have hin : insideWord (some c) = insideWord none := hc
    rw [hhit, hhit, wordHit?, wordHit?, hin]

/-- The mark of an assignment has no semicolon in it, and one behind it is no equals sign. -/
theorem assignmentMark?_append_semicolon (s t : List Char) :
    assignmentMark? (s ++ ';' :: t) = assignmentMark? s := by
  have hhead (rest : List Char) :
      (rest ++ ';' :: t).head? ≠ some '=' ↔ rest.head? ≠ some '=' := by
    cases rest <;> simp
  apply Option.ext
  intro mark
  rw [assignmentMark?_eq_some_iff, assignmentMark?_eq_some_iff]
  refine and_congr_right fun hmark => ?_
  constructor
  · rintro ⟨rest, he, hrest⟩
    rcases List.append_eq_append_iff.1 he with ⟨v, hv, ht⟩ | ⟨v, hv, rfl⟩
    · -- the mark would go on to the semicolon
      cases v with
      | nil => exact ⟨[], by rw [hv, List.append_nil, List.append_nil], by simp⟩
      | cons d v =>
        obtain ⟨rfl, -⟩ := List.cons.inj ht
        have hmarks : ∀ m ∈ assignmentMarks, ';' ∉ m := by decide
        exact absurd (hv ▸ List.mem_append_right s (List.mem_cons_self ..)) (hmarks mark hmark)
    · exact ⟨v, hv, (hhead v).1 hrest⟩
  · rintro ⟨rest, rfl, hrest⟩
    exact ⟨rest ++ ';' :: t, List.append_assoc .., (hhead rest).2 hrest⟩

/-- **The pattern of assignments** is divided by semicolons. -/
theorem dividedBy_assignment : Pattern.assignment.DividedBy ';' where
  hit?_append before s t := by
    have hword := span_append_cons (q := isWord) (c := ';') rfl s t
    have hblank := span_append_cons (q := isBlank) (c := ';') rfl (s.dropWhile isWord) t
    change assignmentHit? before (s ++ ';' :: t) = assignmentHit? before s
    rw [assignmentHit?, assignmentHit?, leadingWord, leadingWord, hword.1, hword.2]
    dsimp only
    rw [hblank.1, hblank.2, assignmentMark?_append_semicolon]
  hit?_behind t := by
    have hin : insideWord (some ';') = insideWord none := rfl
    change assignmentHit? (some ';') t = assignmentHit? none t
    rw [assignmentHit?, assignmentHit?, hin]

end HdlReview.Scan
