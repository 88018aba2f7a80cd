import HdlReview.Proofs.Scan.Renaming
import HdlReview.Proofs.Scan.Stretch

/-!
# Corresponding texts

Two texts correspond when they are the same up to the names of identifiers and the gaps: they are
made of the same stretches in the same order, where a word answers to its renamed form, a gap of
blanks to any other gap, and every other character, line feeds included, to itself. Renaming a
source and writing its gaps anew both lead to a corresponding one.

Whatever is cut off a text at the first character outside of a class corresponds too, as long as the
class does not tell one word character from another, or one blank of a gap from another.

## Main definitions

* `isGap c`, `isMark c`: blanks within a line; characters that are neither of words nor of gaps
* `Corresponds r s t`: `t` is `s` up to the renaming `r` of words and the choice of gaps
* `Uniform p`: the class `p` holds all word characters or none, and all blanks of gaps or none

## Main results

* `Corresponds.takeWhile`, `Corresponds.dropWhile`: beginnings and ends that correspond
* `Corresponds.uncons`: a mark at the front of one text is at the front of the other
* `Corresponds.leadingWord_eq`, `Corresponds.identRest_eq`: words at the front
-/

namespace HdlReview.Scan

open HdlReview.Text

/-- Blanks within a line. -/
def isGap (c : Char) : Bool :=
  isBlank c && c != '\n'

/-- Characters that stand for themselves: neither in words nor in gaps. -/
def isMark (c : Char) : Bool :=
  !isWord c && !isGap c

theorem isBlank_of_isGap {c : Char} (h : isGap c = true) : isBlank c = true := by
  rw [isGap, Bool.and_eq_true] at h
  exact h.1

theorem isWord_eq_false_of_isGap {c : Char} (h : isGap c = true) : isWord c = false :=
  isWord_eq_false_of_isBlank (isBlank_of_isGap h)

theorem isWord_eq_false_of_isMark {c : Char} (h : isMark c = true) : isWord c = false := by
  simp only [isMark, Bool.and_eq_true, Bool.not_eq_true'] at h
  exact h.1

/-- **Corresponding texts.** Words are maximal; the last clause on a word says that its longest
beginning of identifier characters is renamed along with it. -/
inductive Corresponds (r : Renaming) : List Char → List Char → Prop
  | nil : Corresponds r [] []
  | word {w s t : List Char} (hw : IsRun isWord w) (hs : leadingWord s = [])
      (hr : (r.onWord w).takeWhile isIdentRest = r.onWord (w.takeWhile isIdentRest))
      (h : Corresponds r s t) : Corresponds r (w ++ s) (r.onWord w ++ t)
  | gap {g g' s t : List Char} (hg : IsRun isGap g) (hg' : IsRun isGap g')
      (h : Corresponds r s t) : Corresponds r (g ++ s) (g' ++ t)
  | mark {c : Char} {s t : List Char} (hc : isMark c = true) (h : Corresponds r s t) :
      Corresponds r (c :: s) (c :: t)

/-! ## Classes that keep words and gaps whole -/

/-- The class does not tell word characters from each other, nor the blanks of gaps. -/
structure Uniform (p : Char → Bool) : Prop where
  word : (∀ c, isWord c = true → p c = true) ∨ ∀ c, isWord c = true → p c = false
  gap : (∀ c, isGap c = true → p c = true) ∨ ∀ c, isGap c = true → p c = false

theorem uniform_isWord : Uniform isWord :=
  ⟨.inl fun _ h => h, .inr fun _ h => isWord_eq_false_of_isGap h⟩

theorem uniform_isBlank : Uniform isBlank :=
  ⟨.inr fun _ h => isBlank_eq_false_of_isWord h, .inl fun _ h => isBlank_of_isGap h⟩

theorem ne_of_isWord {c d : Char} (h : isWord c = true) (hd : isMark d = true) : c ≠ d := by
  rintro rfl
  rw [isWord_eq_false_of_isMark hd] at h
  exact absurd h (by decide)

theorem ne_of_isGap {c d : Char} (h : isGap c = true) (hd : isMark d = true) : c ≠ d := by
  rintro rfl
  simp [isMark, h] at hd

theorem uniform_inHeader : Uniform inHeader := by
  refine ⟨.inl fun c h => ?_, .inl fun c h => ?_⟩
  · simp [inHeader, ne_of_isWord h (d := '(') (by decide), ne_of_isWord h (d := ')') (by decide)]
  · simp [inHeader, ne_of_isGap h (d := '(') (by decide), ne_of_isGap h (d := ')') (by decide)]

theorem uniform_inLineHeader : Uniform inLineHeader := by
  refine ⟨.inl fun c h => ?_, .inl fun c h => ?_⟩
  · simp [inLineHeader, inHeader, ne_of_isWord h (d := '(') (by decide),
      ne_of_isWord h (d := ')') (by decide), ne_of_isWord h (d := '\n') (by decide)]
  · simp [inLineHeader, inHeader, ne_of_isGap h (d := '(') (by decide),
      ne_of_isGap h (d := ')') (by decide), ne_of_isGap h (d := '\n') (by decide)]

namespace Corresponds

variable {r : Renaming} {p : Char → Bool} {s t : List Char}

/-! ## Beginnings and ends -/

theorem dropWhile (hp : Uniform p) (h : Corresponds r s t) :
    Corresponds r (s.dropWhile p) (t.dropWhile p) := by
  induction h with
  | nil => exact .nil
  | word hw hs hr h ih =>
    have hw' := r.isRun_onWord hw
    -- the class takes in both words whole, or stops in front of both
    rcases hp.word with hp | hp
    · rwa [List.dropWhile_append_of_pos fun c hc => hp c (hw.all c hc),
        List.dropWhile_append_of_pos fun c hc => hp c (hw'.all c hc)]
    · rw [dropWhile_run_of_not hw hp, dropWhile_run_of_not hw' hp]
      exact .word hw hs hr h
  | gap hg hg' h ih =>
    rcases hp.gap with hp | hp
    · rwa [List.dropWhile_append_of_pos fun c hc => hp c (hg.all c hc),
        List.dropWhile_append_of_pos fun c hc => hp c (hg'.all c hc)]
    · rw [dropWhile_run_of_not hg hp, dropWhile_run_of_not hg' hp]
      exact .gap hg hg' h
  | @mark c s t hc h ih =>
    rw [List.dropWhile_cons, List.dropWhile_cons]
    split
    · exact ih
    · exact .mark hc h

theorem takeWhile (hp : Uniform p) (h : Corresponds r s t) :
    Corresponds r (s.takeWhile p) (t.takeWhile p) := by
  induction h with
  | nil => exact .nil
  | word hw hs hr h ih =>
    have hw' := r.isRun_onWord hw
    rcases hp.word with hp | hp
    · rw [List.takeWhile_append_of_pos fun c hc => hp c (hw.all c hc),
        List.takeWhile_append_of_pos fun c hc => hp c (hw'.all c hc)]
      -- a word that was maximal is maximal in what is cut off
      exact .word hw (leadingWord_of_isPrefix (List.takeWhile_prefix p) hs) hr ih
    · rw [takeWhile_run_of_not hw hp, takeWhile_run_of_not hw' hp]
      exact .nil
  | gap hg hg' h ih =>
    rcases hp.gap with hp | hp
    · rw [List.takeWhile_append_of_pos fun c hc => hp c (hg.all c hc),
        List.takeWhile_append_of_pos fun c hc => hp c (hg'.all c hc)]
      exact .gap hg hg' ih
    · rw [takeWhile_run_of_not hg hp, takeWhile_run_of_not hg' hp]
      exact .nil
  | @mark c s t hc h ih =>
    rw [List.takeWhile_cons, List.takeWhile_cons]
    split
    · exact .mark hc ih
    · exact .nil

theorem eq_nil_iff (h : Corresponds r s t) : s = [] ↔ t = [] := by
  cases h with
  | nil => simp
  | word hw hs hr h => simp [hw.ne_nil, (r.isRun_onWord hw).ne_nil]
  | gap hg hg' h => simp [hg.ne_nil, hg'.ne_nil]
  | mark hc h => simp

/-! ## The front of a text -/

/-- A run of characters at the front that does not hold the mark `c`. -/
theorem head?_run_ne {q : Char → Bool} {w : List Char} {c : Char} (hw : IsRun q w)
    (hc : q c = false) (s : List Char) : (w ++ s).head? ≠ some c := by
  obtain ⟨d, w', rfl⟩ := List.exists_cons_of_ne_nil hw.ne_nil
  have hd := hw.all d (List.mem_cons_self ..)
  rw [List.cons_append, List.head?_cons]
  rintro ⟨⟩
  rw [hc] at hd
  exact absurd hd (by decide)

/-- **A mark at the front** of one text is at the front of the other. -/
theorem uncons {c : Char} (hc : isMark c = true) (h : Corresponds r s t) :
    s.head? ≠ some c ∧ t.head? ≠ some c ∨
      ∃ s' t', s = c :: s' ∧ t = c :: t' ∧ Corresponds r s' t' := by
  have hc' := hc
  simp only [isMark, Bool.and_eq_true, Bool.not_eq_true'] at hc'
  cases h with
  | nil => exact .inl ⟨nofun, nofun⟩
  | word hw hs hr h =>
    exact .inl ⟨head?_run_ne hw hc'.1 _, head?_run_ne (r.isRun_onWord hw) hc'.1 _⟩
  | gap hg hg' h => exact .inl ⟨head?_run_ne hg hc'.2 _, head?_run_ne hg' hc'.2 _⟩
  | @mark d s t hd h =>
    by_cases he : d = c
    · subst he
      exact .inr ⟨s, t, rfl, rfl, h⟩
    · exact .inl ⟨by simpa using he, by simpa using he⟩

/-- **The word at the front** is renamed. -/
theorem leadingWord_eq (h : Corresponds r s t) : leadingWord t = r.onWord (leadingWord s) := by
  induction h with
  | nil => exact r.onWord_nil.symm
  | word hw hs hr h ih =>
    rw [hs, r.onWord_nil] at ih
    rw [leadingWord_run hw hs, leadingWord_run (r.isRun_onWord hw) ih]
  | gap hg hg' h ih =>
    rw [leadingWord, leadingWord, takeWhile_run_of_not hg fun _ => isWord_eq_false_of_isGap,
      takeWhile_run_of_not hg' fun _ => isWord_eq_false_of_isGap, r.onWord_nil]
  | mark hc h ih =>
    have hw := isWord_eq_false_of_isMark hc
    rw [leadingWord_cons hw, leadingWord_cons hw, r.onWord_nil]

/-- The identifier characters at the front are renamed. -/
theorem identRest_eq (h : Corresponds r s t) :
    t.takeWhile isIdentRest = r.onWord (s.takeWhile isIdentRest) := by
  -- no identifier character lies beyond the word at the front
  have hcut : (r.onWord (leadingWord s)).takeWhile isIdentRest =
      r.onWord ((leadingWord s).takeWhile isIdentRest) := by
    cases h with
    | nil => simp [leadingWord]
    | word hw hs hr h => rwa [leadingWord_run hw hs]
    | gap hg hg' h =>
      rw [leadingWord, takeWhile_run_of_not hg fun _ => isWord_eq_false_of_isGap]
      simp
    | mark hc h =>
      rw [leadingWord_cons (isWord_eq_false_of_isMark hc)]
      simp
  rw [← takeWhile_isIdentRest_leadingWord t, h.leadingWord_eq, hcut,
    takeWhile_isIdentRest_leadingWord]

end Corresponds

end HdlReview.Scan
