import HdlReview.Proofs.Text.Classes
import HdlReview.Scan.Search
import Mathlib.Data.List.Infix
import Mathlib.Data.List.TakeWhile

/-!
# Patterns at the front of a text

What the patterns match, said through the word at the front of a text. A keyword that is followed by
a blank is a whole word, so `or` between blanks, `posedge` before a clock and `always` before a
header are conditions on words: the first two on the word at the front, the last on its end.

## Main definitions

* `IsRun p w`: a text of characters of one class that is not empty
* `OrAhead s`: the word `or` between blanks is at the front of `s`

## Main results

* `listHit?_eq_none`, `blockingHit?_eq_none`, `nonBlockingHit?_eq_none`, `assignmentMark?_eq_none`,
  `alwaysHit?_eq_none`: fronts at which nothing is matched
* `separatorHit?_comma`, `separatorHit?_word`: commas, and the word `or`
* `posedgeHit?_eq`: the word `posedge` and a clock
* `alwaysHit?_run`: a header behind a word that ends in `always`
-/

namespace HdlReview.Scan

open HdlReview.Text

/-- The text is not empty and all its characters are of a class. -/
structure IsRun (p : Char → Bool) (w : List Char) : Prop where
  ne_nil : w ≠ []
  all : ∀ c ∈ w, p c = true

theorem isRun_iff {p : Char → Bool} {w : List Char} : IsRun p w ↔ w ≠ [] ∧ w.all p = true := by
  rw [List.all_eq_true]
  exact ⟨fun h => ⟨h.ne_nil, h.all⟩, fun h => ⟨h.1, h.2⟩⟩

instance (p : Char → Bool) (w : List Char) : Decidable (IsRun p w) :=
  decidable_of_iff _ isRun_iff.symm

/-! ## Runs at the front of a text -/

section Runs

variable {p q : Char → Bool} {w s : List Char}

theorem takeWhile_run_of_not (hw : IsRun q w) (h : ∀ c, q c = true → p c = false) :
    (w ++ s).takeWhile p = [] := by
  obtain ⟨c, w', rfl⟩ := List.exists_cons_of_ne_nil hw.ne_nil
  have hc : p c = false := h c (hw.all c (List.mem_cons_self ..))
  simp [hc]

theorem dropWhile_run_of_not (hw : IsRun q w) (h : ∀ c, q c = true → p c = false) :
    (w ++ s).dropWhile p = w ++ s := by
  obtain ⟨c, w', rfl⟩ := List.exists_cons_of_ne_nil hw.ne_nil
  have hc : p c = false := h c (hw.all c (List.mem_cons_self ..))
  simp [hc]

/-- A stretch of a class ends where a character is not of the class. -/
theorem span_of_stop (hw : ∀ c ∈ w, p c = true) (hs : ∀ c, s.head? = some c → p c = false) :
    (w ++ s).takeWhile p = w ∧ (w ++ s).dropWhile p = s := by
  rw [List.takeWhile_append_of_pos hw, List.dropWhile_append_of_pos hw]
  cases s with
  | nil => simp
  | cons c s => simp [hs c rfl]

/-- Behind a stretch of a class there is no further character of the class. -/
theorem head?_dropWhile_eq_false (p : Char → Bool) (s : List Char) :
    ∀ c, (s.dropWhile p).head? = some c → p c = false := by
  intro c hc
  have hnot := List.head?_dropWhile_not p s
  rw [hc] at hnot
  simpa using hnot

theorem leadingWord_of_isPrefix {a : List Char} (ha : a <+: s) (h : leadingWord s = []) :
    leadingWord a = [] := by
  obtain ⟨b, rfl⟩ := ha
  cases a with
  | nil => rfl
  | cons c a =>
    cases hc : isWord c with
    | true => simp [leadingWord, hc] at h
    | false => simp [leadingWord, hc]

theorem leadingWord_dropWhile_isWord (s : List Char) : leadingWord (s.dropWhile isWord) = [] := by
  induction s with
  | nil => rfl
  | cons c s ih =>
    cases hc : isWord c with
    | true => simpa [hc] using ih
    | false => simp [leadingWord, hc]

theorem leadingWord_cons {c : Char} (h : isWord c = false) : leadingWord (c :: s) = [] := by
  simp [leadingWord, h]

theorem leadingWord_run (hw : IsRun isWord w) (hs : leadingWord s = []) :
    leadingWord (w ++ s) = w := by
  rw [leadingWord] at hs ⊢
  rw [List.takeWhile_append_of_pos hw.all, hs, List.append_nil]

/-- Identifier characters are word characters. -/
theorem takeWhile_isIdentRest_leadingWord (s : List Char) :
    (leadingWord s).takeWhile isIdentRest = s.takeWhile isIdentRest := by
  have hp : (fun c => isIdentRest c && isWord c) = isIdentRest := by
    funext c
    cases hc : isIdentRest c with
    | true => rw [Bool.true_and, isWord_of_isIdentRest hc]
    | false => rfl
  simp only [leadingWord, List.takeWhile_takeWhile, Bool.decide_and, Bool.decide_eq_true, hp]

end Runs

/-! ## Fronts without a match -/

theorem listHit?_eq_none {p : Char → Bool} {s : List Char} (h : s.head? ≠ some '@') :
    listHit? p s = none := by
  rw [listHit?.eq_def]
  split
  · exact absurd rfl h
  · rfl

theorem blockingHit?_eq_none {before : Option Char} {s : List Char} (h : s.head? ≠ some '=') :
    blockingHit? before s = none := by
  rw [blockingHit?.eq_def]
  split
  · exact absurd rfl h
  · rfl

theorem nonBlockingHit?_eq_none {s : List Char} (h : s.head? ≠ some '<') :
    nonBlockingHit? s = none := by
  rw [nonBlockingHit?.eq_def]
  split
  · exact absurd rfl h
  · rfl

theorem assignmentMark?_eq_none {s : List Char} (h : s.head? ≠ some '=')
    (h' : s.head? ≠ some '<' ∨ s.tail.head? ≠ some '=') : assignmentMark? s = none := by
  rw [assignmentMark?.eq_def]
  split
  · rcases h' with h' | h' <;> exact absurd rfl h'
  · exact absurd rfl h
  · rfl

theorem alwaysHit?_eq_none {s : List Char} (h : s.head? ≠ some 'a') : alwaysHit? s = none := by
  rw [alwaysHit?]
  split
  · next u hu =>
    rw [List.isPrefixOf?_eq_some_iff_append_eq] at hu
    exact absurd (congrArg List.head? hu).symm h
  · rfl

/-! ## Headers -/

theorem header_eq {p : Char → Bool} {u list rest : List Char}
    (hu : u.dropWhile isBlank = '(' :: list) (hl : list.dropWhile p = ')' :: rest) :
    '@' :: u = ('@' :: u.takeWhile isBlank ++ '(' :: list.takeWhile p ++ [')']) ++ rest := by
  calc '@' :: u = '@' :: (u.takeWhile isBlank ++ u.dropWhile isBlank) := by
        rw [List.takeWhile_append_dropWhile]
    _ = '@' :: (u.takeWhile isBlank ++ '(' :: (list.takeWhile p ++ list.dropWhile p)) := by
        rw [hu, List.takeWhile_append_dropWhile]
    _ = ('@' :: u.takeWhile isBlank ++ '(' :: list.takeWhile p ++ [')']) ++ rest := by
        rw [hl]
        simp

/-! ## Keywords -/

theorem isChoice_false_iff {choices : List (List Char)} {w : List Char} :
    isChoice false choices w = true ↔ w ∈ choices := by
  simp [isChoice]

/-- A text as the word, the blanks and the rest at its front. -/
theorem word_blanks_eq (s : List Char) : s = leadingWord s ++
    ((s.dropWhile isWord).takeWhile isBlank ++ (s.dropWhile isWord).dropWhile isBlank) := by
  rw [List.takeWhile_append_dropWhile]
  exact List.takeWhile_append_dropWhile.symm

theorem separatorHit?_comma {s u : List Char} (h : s.dropWhile isBlank = ',' :: u) :
    separatorHit? s = some ⟨s.takeWhile isBlank ++ ',' :: u.takeWhile isBlank, []⟩ := by
  simp only [separatorHit?, h]

/-- A keyword with a blank behind it is a whole word at its end. -/
theorem leadingWord_keyword {k u : List Char} (hk : IsRun isWord k)
    (hu : u.takeWhile isBlank ≠ []) :
    leadingWord (k ++ u) = k ∧ (k ++ u).dropWhile isWord = u := by
  cases u with
  | nil => exact absurd rfl hu
  | cons c u =>
    have hb : isBlank c = true := by
      rw [List.takeWhile_cons] at hu
      split at hu
      · assumption
      · exact absurd rfl hu
    have hc : isWord c = false := isWord_eq_false_of_isBlank hb
    refine ⟨leadingWord_run hk (leadingWord_cons hc), ?_⟩
    rw [List.dropWhile_append_of_pos hk.all]
    simp [hc]

theorem keyword_append_dropWhile {k s : List Char} (h : leadingWord s = k) :
    k ++ s.dropWhile isWord = s := by
  rw [← h]
  exact List.takeWhile_append_dropWhile

/-- The word `or` with blanks on both sides is at the front. -/
def OrAhead (s : List Char) : Prop :=
  s.takeWhile isBlank ≠ [] ∧ leadingWord (s.dropWhile isBlank) = "or".toList ∧
    ((s.dropWhile isBlank).dropWhile isWord).takeWhile isBlank ≠ []

instance (s : List Char) : Decidable (OrAhead s) :=
  inferInstanceAs (Decidable (_ ∧ _))

/-- Without a comma, a separator is the word `or` with blanks on both sides. -/
theorem separatorHit?_word {s : List Char} (h : (s.dropWhile isBlank).head? ≠ some ',') :
    separatorHit? s =
      if OrAhead s then
        some ⟨s.takeWhile isBlank ++ "or".toList ++
          ((s.dropWhile isBlank).dropWhile isWord).takeWhile isBlank, []⟩
      else none := by
  have hor : IsRun isWord "or".toList := by decide
  rw [separatorHit?]
  dsimp only
  split
  · next v hu =>
    rw [hu] at h
    exact absurd rfl h
  · next v hu =>
    -- the word at the front is `or` when a blank follows, else no separator is there
    by_cases hv : v.takeWhile isBlank = []
    · rw [if_neg (by simp [hv]), if_neg]
      rintro ⟨-, hw, hne⟩
      rw [hu] at hw hne
      have hd : ('o' :: 'r' :: v).dropWhile isWord = v := by
        simpa using keyword_append_dropWhile hw
      rw [hd] at hne
      exact hne hv
    · obtain ⟨hw, hd⟩ := leadingWord_keyword hor hv
      change leadingWord ('o' :: 'r' :: v) = _ at hw
      change ('o' :: 'r' :: v).dropWhile isWord = _ at hd
      have ho : OrAhead s ↔ s.takeWhile isBlank ≠ [] := by
        rw [OrAhead, hu, hw, hd]
        simp [hv]
      rw [hu, hd]
      simp [ho, hv]
  · next hno =>
    rw [if_neg]
    rintro ⟨-, hw, -⟩
    exact hno _ (keyword_append_dropWhile hw).symm

theorem comma_append_eq {s u : List Char} (h : s.dropWhile isBlank = ',' :: u) :
    s = (s.takeWhile isBlank ++ ',' :: u.takeWhile isBlank) ++ u.dropWhile isBlank := by
  rw [List.append_assoc, List.cons_append, List.takeWhile_append_dropWhile, ← h,
    List.takeWhile_append_dropWhile]

theorem OrAhead.append_eq {s : List Char} (h : OrAhead s) :
    s = (s.takeWhile isBlank ++ "or".toList ++
        ((s.dropWhile isBlank).dropWhile isWord).takeWhile isBlank) ++
      ((s.dropWhile isBlank).dropWhile isWord).dropWhile isBlank := by
  rw [List.append_assoc, List.takeWhile_append_dropWhile, List.append_assoc,
    keyword_append_dropWhile h.2.1, List.takeWhile_append_dropWhile]

/-- The clock behind the word `posedge`. -/
theorem posedgeHit?_eq (before : Option Char) (s : List Char) :
    posedgeHit? before s =
      let gap := (s.dropWhile isWord).takeWhile isBlank
      let name := ((s.dropWhile isWord).dropWhile isBlank).takeWhile isIdentRest
      if insideWord before = false ∧ leadingWord s = "posedge".toList ∧ gap ≠ [] ∧
          isIdentifier name = true then
        some ⟨"posedge".toList ++ gap ++ name, [name]⟩
      else none := by
  have hk : IsRun isWord "posedge".toList := by decide
  rw [posedgeHit?]
  cases hp : "posedge".toList.isPrefixOf? s with
  | none =>
    dsimp only
    rw [if_neg]
    rintro ⟨-, hw, -⟩
    rw [List.isPrefixOf?_eq_some_iff_append_eq.2 (keyword_append_dropWhile hw)] at hp
    exact absurd hp nofun
  | some u =>
    rw [List.isPrefixOf?_eq_some_iff_append_eq] at hp
    subst hp
    dsimp only
    by_cases hu : u.takeWhile isBlank = []
    · rw [if_neg (by simp [hu]), if_neg]
      rintro ⟨-, hw, hne, -⟩
      rw [List.append_cancel_left (keyword_append_dropWhile hw)] at hne
      exact hne hu
    · obtain ⟨hw, hd⟩ := leadingWord_keyword hk hu
      rw [hw, hd]
      simp only [Bool.and_eq_true, Bool.not_eq_true', bne_iff_ne, ne_eq, hu, not_false_eq_true,
        true_and, and_true]

/-- A header behind a whole word: the word has to be `always`. -/
theorem alwaysHit?_run {w s : List Char} (hw : IsRun isWord w) (hs : leadingWord s = []) :
    alwaysHit? (w ++ s) =
      if w = "always".toList then
        (listHit? inLineHeader (s.dropWhile isBlank)).map fun h =>
          ⟨"always".toList ++ s.takeWhile isBlank ++ h.text, h.groups⟩
      else none := by
  have hk : IsRun isWord "always".toList := by decide
  rw [alwaysHit?]
  cases hp : "always".toList.isPrefixOf? (w ++ s) with
  | none =>
    dsimp only
    rw [if_neg]
    rintro rfl
    rw [List.isPrefixOf?_eq_some_iff_append_eq.2 rfl] at hp
    exact absurd hp nofun
  | some u =>
    rw [List.isPrefixOf?_eq_some_iff_append_eq] at hp
    dsimp only
    by_cases hu : leadingWord u = []
    · -- the word ends with `always`
      have he : w = "always".toList := by
        rw [← leadingWord_run hw hs, ← hp, leadingWord_run hk hu]
      subst he
      rw [if_pos rfl, List.append_cancel_left hp]
    · -- the word goes on, and no header starts there
      have hne : w ≠ "always".toList := by
        rintro rfl
        rw [List.append_cancel_left hp] at hu
        exact hu hs
      obtain ⟨c, v, rfl⟩ : ∃ c v, u = c :: v := List.exists_cons_of_ne_nil fun he => by
        simp [he, leadingWord] at hu
      have hc : isWord c = true := by
        rw [← Bool.not_eq_false]
        exact fun hc => hu (leadingWord_cons hc)
      rw [if_neg hne, List.dropWhile_cons_of_neg (by simp [isBlank_eq_false_of_isWord hc]),
        listHit?_eq_none, Option.map_none]
      rintro ⟨⟩
      exact absurd hc (by decide)

end HdlReview.Scan
