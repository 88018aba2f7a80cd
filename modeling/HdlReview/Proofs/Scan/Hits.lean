import HdlReview.Proofs.Scan.Correspondence

/-!
# Matches at the front of corresponding texts

At corresponding places of corresponding texts each pattern matches on both sides or on neither, and
what it captures corresponds. For most patterns the texts also correspond behind the matches. Two
patterns are apart: the clock behind `posedge` may end inside a word, and `always` may start inside
one.

## Main definitions

* `Abut before before' s`: places with like characters before them, not inside a word
* `GoesOn r s t h h'`: the texts behind two matches correspond
* `SameLists r h h'`, `SameNames r h h'`: what two matches capture corresponds

## Main results

* `Corresponds.wordHit?_rel`, `Corresponds.listHit?_rel`, `Corresponds.assignmentHit?_rel`,
  `Corresponds.blockingHit?_rel`, `Corresponds.nonBlockingHit?_rel`,
  `Corresponds.separatorHit?_rel`, `Corresponds.posedgeHit?_rel`: pattern by pattern
-/

namespace HdlReview.Scan

open HdlReview.Text

/-- Places of two texts, the first going on with `s`: the characters before them are alike, and no
word goes on across them. -/
structure Abut (before before' : Option Char) (s : List Char) : Prop where
  inside : insideWord before = insideWord before'
  equals : before.any joinsEquals = before'.any joinsEquals
  boundary : insideWord before = true → leadingWord s = []

/-- The texts behind two matches correspond, and so do the places. -/
structure GoesOn (r : Renaming) (s t : List Char) (h h' : Hit) : Prop where
  ne_nil : h.text ≠ []
  ne_nil' : h'.text ≠ []
  rest : ∃ s' t', s = h.text ++ s' ∧ t = h'.text ++ t' ∧ Corresponds r s' t' ∧
    ∀ before before', Abut (behind before h.text) (behind before' h'.text) s'

/-- Two matches that capture lists which correspond. -/
def SameLists (r : Renaming) (h h' : Hit) : Prop :=
  ∃ list list', h.groups = [list] ∧ h'.groups = [list'] ∧ Corresponds r list list'

/-- Two matches that capture a name and the renamed name. -/
def SameNames (r : Renaming) (h h' : Hit) : Prop :=
  ∃ name, h.groups = [name] ∧ h'.groups = [r.onWord name]

section Places

variable {w w' s : List Char} {before before' : Option Char}

theorem joinsEquals_of_isWord {c : Char} (h : isWord c = true) : joinsEquals c = false := by
  simp [joinsEquals, ne_of_isWord h (d := '<') (by decide), ne_of_isWord h (d := '>') (by decide),
    ne_of_isWord h (d := '=') (by decide), ne_of_isWord h (d := '!') (by decide)]

theorem insideWord_behind_run (hw : IsRun isWord w) : insideWord (behind before w) = true := by
  obtain ⟨c, hc, hb⟩ := exists_mem_behind hw.ne_nil before
  simp [insideWord, hb, hw.all c hc]

theorem abut_word (hw : IsRun isWord w) (hw' : IsRun isWord w') (hs : leadingWord s = []) :
    Abut (behind before w) (behind before' w') s := by
  obtain ⟨c, hc, hb⟩ := exists_mem_behind hw.ne_nil before
  obtain ⟨c', hc', hb'⟩ := exists_mem_behind hw'.ne_nil before'
  refine ⟨?_, ?_, fun _ => hs⟩
  · rw [insideWord_behind_run hw, insideWord_behind_run hw']
  · simp [hb, hb', joinsEquals_of_isWord (hw.all c hc), joinsEquals_of_isWord (hw'.all c' hc')]

/-- A place with a character before it that is of no word and joins no equals sign. -/
structure Plain (before : Option Char) : Prop where
  outside : insideWord before = false
  apart : before.any joinsEquals = false

theorem Plain.abut (h : Plain before) (h' : Plain before') : Abut before before' s :=
  ⟨by rw [h.outside, h'.outside], by rw [h.apart, h'.apart],
    fun hb => absurd hb (by simp [h.outside])⟩

theorem plain_of_isBlank {c : Char} (h : isBlank c = true) : Plain (some c) := by
  refine ⟨by simp [insideWord, isWord_eq_false_of_isBlank h], ?_⟩
  have hne : ∀ d, isBlank d = false → c ≠ d := fun d hd he => by simp [← he, h] at hd
  simp [joinsEquals, hne '<' (by decide), hne '>' (by decide), hne '=' (by decide),
    hne '!' (by decide)]

theorem Plain.behind (h : Plain before) (hg : ∀ c ∈ w, isBlank c = true) :
    Plain (behind before w) := by
  induction w generalizing before with
  | nil => exact h
  | cons c w ih =>
    exact ih (plain_of_isBlank (hg c (List.mem_cons_self ..)))
      fun d hd => hg d (List.mem_cons_of_mem c hd)

theorem plain_behind_run (hg : IsRun isBlank w) : Plain (behind before w) := by
  obtain ⟨c, w', rfl⟩ := List.exists_cons_of_ne_nil hg.ne_nil
  exact (plain_of_isBlank (hg.all c (List.mem_cons_self ..))).behind
    fun d hd => hg.all d (List.mem_cons_of_mem c hd)

theorem abut_gap (hg : IsRun isGap w) (hg' : IsRun isGap w') :
    Abut (behind before w) (behind before' w') s :=
  (plain_behind_run ⟨hg.ne_nil, fun c hc => isBlank_of_isGap (hg.all c hc)⟩).abut
    (plain_behind_run ⟨hg'.ne_nil, fun c hc => isBlank_of_isGap (hg'.all c hc)⟩)

theorem abut_mark {c : Char} (hc : isMark c = true) : Abut (some c) (some c) s := by
  refine ⟨rfl, rfl, fun h => ?_⟩
  simp [insideWord, isWord_eq_false_of_isMark hc] at h

end Places

namespace Corresponds

variable {r : Renaming} {s t : List Char} {before before' : Option Char}

theorem head?_beq_eq {c : Char} (hc : isMark c = true) (h : Corresponds r s t) :
    (s.head? == some c) = (t.head? == some c) := by
  rcases h.uncons hc with ⟨hs, ht⟩ | ⟨s', t', rfl, rfl, -⟩
  · rw [beq_eq_false_iff_ne.2 hs, beq_eq_false_iff_ne.2 ht]
  · rfl

/-! ## Words -/

theorem wordHit?_rel {accepts : List Char → Bool} (ha : ∀ w, accepts (r.onWord w) = accepts w)
    (h : Corresponds r s t) (hb : insideWord before = insideWord before') :
    Option.Rel (fun m m' => GoesOn r s t m m' ∧ m'.text = r.onWord m.text)
      (wordHit? accepts before s) (wordHit? accepts before' t) := by
  have hn : (r.onWord (leadingWord s) != []) = (leadingWord s != []) := by
    rw [Bool.eq_iff_iff, bne_iff_ne, bne_iff_ne, ne_eq, ne_eq, r.onWord_eq_nil_iff]
  simp only [wordHit?, h.leadingWord_eq, ← hb, ha, hn]
  split
  · next hif =>
    simp only [Bool.and_eq_true, bne_iff_ne, Bool.not_eq_true'] at hif
    have hw : IsRun isWord (leadingWord s) := ⟨hif.1.2, fun c hc => List.mem_takeWhile_imp hc⟩
    have hrest := h.dropWhile uniform_isWord
    refine .some ⟨⟨hw.ne_nil, (r.isRun_onWord hw).ne_nil, s.dropWhile isWord, t.dropWhile isWord,
      List.takeWhile_append_dropWhile.symm, ?_, hrest, fun _ _ => ?_⟩, rfl⟩
    · rw [← h.leadingWord_eq]
      exact List.takeWhile_append_dropWhile.symm
    · exact abut_word hw (r.isRun_onWord hw) (leadingWord_dropWhile_isWord s)
  · exact .none

/-! ## Headers -/

/-- The three marks of a header are met on both sides or on neither, and the lists between the last
two correspond. -/
theorem listHit?_rel {p : Char → Bool} (hp : Uniform p) (h : Corresponds r s t) :
    Option.Rel (fun m m' => GoesOn r s t m m' ∧ SameLists r m m')
      (listHit? p s) (listHit? p t) := by
  -- mark by mark: the `@`, the opening parenthesis behind blanks, the closing one behind the list
  rcases h.uncons (c := '@') (by decide) with ⟨hs, ht⟩ | ⟨s₁, t₁, rfl, rfl, h₁⟩
  · rw [listHit?_eq_none hs, listHit?_eq_none ht]
    exact .none
  simp only [listHit?]
  rcases (h₁.dropWhile uniform_isBlank).uncons (c := '(') (by decide) with
    ⟨hs, ht⟩ | ⟨s₂, t₂, hs₂, ht₂, h₂⟩
  · split
    · next he => simp [he] at hs
    · split
      · next he => simp [he] at ht
      · exact .none
  simp only [hs₂, ht₂]
  rcases (h₂.dropWhile hp).uncons (c := ')') (by decide) with ⟨hs, ht⟩ | ⟨s₃, t₃, hs₃, ht₃, h₃⟩
  · split
    · next he => simp [he] at hs
    · split
      · next he => simp [he] at ht
      · exact .none
  simp only [hs₃, ht₃]
  refine .some ⟨⟨by simp, by simp, s₃, t₃, header_eq hs₂ hs₃, header_eq ht₂ ht₃, h₃,
    fun _ _ => ?_⟩, _, _, rfl, rfl, h₂.takeWhile hp⟩
  simp only [behind_append, behind_cons, behind_nil]
  exact abut_mark (by decide)

/-! ## Marks of assignments -/

theorem blockingHit?_rel (h : Corresponds r s t)
    (hb : before.any joinsEquals = before'.any joinsEquals) :
    Option.Rel (GoesOn r s t) (blockingHit? before s) (blockingHit? before' t) := by
  rcases h.uncons (c := '=') (by decide) with ⟨hs, ht⟩ | ⟨s₁, t₁, rfl, rfl, h₁⟩
  · rw [blockingHit?_eq_none hs, blockingHit?_eq_none ht]
    exact .none
  · -- what stands on both sides of the sign is alike
    simp only [blockingHit?, hb, h₁.head?_beq_eq (c := '=') (by decide)]
    split
    · exact .none
    · exact .some ⟨nofun, nofun, s₁, t₁, rfl, rfl, h₁, fun _ _ => abut_mark (by decide)⟩

theorem nonBlockingHit?_rel (h : Corresponds r s t) :
    Option.Rel (GoesOn r s t) (nonBlockingHit? s) (nonBlockingHit? t) := by
  rcases h.uncons (c := '<') (by decide) with ⟨hs, ht⟩ | ⟨s₁, t₁, rfl, rfl, h₁⟩
  · rw [nonBlockingHit?_eq_none hs, nonBlockingHit?_eq_none ht]
    exact .none
  rcases h₁.uncons (c := '=') (by decide) with ⟨hs, ht⟩ | ⟨s₂, t₂, rfl, rfl, h₂⟩
  · simp only [nonBlockingHit?]
    split
    · next he => simp at he; simp [he] at hs
    · split
      · next he => simp at he; simp [he] at ht
      · exact .none
  · exact .some ⟨nofun, nofun, s₂, t₂, rfl, rfl, h₂, fun _ _ => abut_mark (by decide)⟩

/-- The mark of an assignment is the same on both sides. -/
theorem assignmentMark?_cases (h : Corresponds r s t) :
    assignmentMark? s = none ∧ assignmentMark? t = none ∨
      ∃ mark s' t', assignmentMark? s = some mark ∧ assignmentMark? t = some mark ∧
        s = mark ++ s' ∧ t = mark ++ t' ∧ Corresponds r s' t' ∧ ∀ b, behind b mark = some '=' := by
  rcases h.uncons (c := '=') (by decide) with ⟨hs, ht⟩ | ⟨s₁, t₁, rfl, rfl, h₁⟩
  · rcases h.uncons (c := '<') (by decide) with ⟨hs', ht'⟩ | ⟨s₁, t₁, rfl, rfl, h₁⟩
    · exact .inl ⟨assignmentMark?_eq_none hs (.inl hs'), assignmentMark?_eq_none ht (.inl ht')⟩
    · rcases h₁.uncons (c := '=') (by decide) with ⟨hs₁, ht₁⟩ | ⟨s₂, t₂, rfl, rfl, h₂⟩
      · exact .inl ⟨assignmentMark?_eq_none hs (.inr hs₁), assignmentMark?_eq_none ht (.inr ht₁)⟩
      · simp only [assignmentMark?, h₂.head?_beq_eq (c := '=') (by decide)]
        split
        · exact .inl ⟨rfl, rfl⟩
        · exact .inr ⟨_, s₂, t₂, rfl, rfl, rfl, rfl, h₂, fun _ => rfl⟩
  · simp only [assignmentMark?, h₁.head?_beq_eq (c := '=') (by decide)]
    split
    · exact .inl ⟨rfl, rfl⟩
    · exact .inr ⟨_, s₁, t₁, rfl, rfl, rfl, rfl, h₁, fun _ => rfl⟩

theorem assignmentHit?_rel (h : Corresponds r s t)
    (hb : insideWord before = insideWord before') :
    Option.Rel (fun m m' => GoesOn r s t m m' ∧ SameNames r m m')
      (assignmentHit? before s) (assignmentHit? before' t) := by
  have hw := h.dropWhile uniform_isWord
  simp only [assignmentHit?, h.leadingWord_eq, r.isIdentifier_onWord, ← hb]
  split
  · rcases (hw.dropWhile uniform_isBlank).assignmentMark?_cases with
      ⟨hs, ht⟩ | ⟨mark, s', t', hs, ht, es, et, hrest, hm⟩
    · rw [hs, ht]
      exact .none
    · rw [hs, ht]
      -- the match ends in an equals sign, whatever the target
      have hne : mark ≠ [] := by
        rintro rfl
        exact absurd (hm none) nofun
      refine .some ⟨⟨by simp [hne], by simp [hne], s', t', ?_, ?_, hrest, fun _ _ => ?_⟩,
        _, rfl, rfl⟩
      · rw [List.append_assoc, List.append_assoc, ← es]
        exact word_blanks_eq s
      · rw [List.append_assoc, List.append_assoc, ← et, ← h.leadingWord_eq]
        exact word_blanks_eq t
      · simp only [behind_append, hm]
        exact abut_mark (by decide)
  · exact .none

/-! ## Separators -/

theorem takeWhile_isBlank_eq_nil_iff (h : Corresponds r s t) :
    s.takeWhile isBlank = [] ↔ t.takeWhile isBlank = [] :=
  (h.takeWhile uniform_isBlank).eq_nil_iff

theorem orAhead_iff (h : Corresponds r s t) : OrAhead t ↔ OrAhead s := by
  have hd := h.dropWhile uniform_isBlank
  rw [OrAhead, OrAhead, hd.leadingWord_eq, r.onWord_eq_iff (by decide), ne_eq, ne_eq, ne_eq, ne_eq,
    h.takeWhile_isBlank_eq_nil_iff,
    (hd.dropWhile uniform_isWord).takeWhile_isBlank_eq_nil_iff]

theorem separatorHit?_rel (h : Corresponds r s t) :
    Option.Rel (GoesOn r s t) (separatorHit? s) (separatorHit? t) := by
  -- a separator ends in blanks, or in a comma if there are none
  have hblank : ∀ u : List Char, ∀ c ∈ u.takeWhile isBlank, isBlank c = true :=
    fun u c hc => List.mem_takeWhile_imp hc
  have hd := h.dropWhile uniform_isBlank
  rcases hd.uncons (c := ',') (by decide) with ⟨hs, ht⟩ | ⟨s₁, t₁, hs, ht, h₁⟩
  · rw [separatorHit?_word hs, separatorHit?_word ht]
    by_cases ho : OrAhead s
    · have ho' : OrAhead t := h.orAhead_iff.2 ho
      rw [if_pos ho, if_pos ho']
      refine .some ⟨by simp [ho.1], by simp [ho'.1], _, _, ho.append_eq, ho'.append_eq,
        (hd.dropWhile uniform_isWord).dropWhile uniform_isBlank, fun _ _ => ?_⟩
      simp only [behind_append]
      exact (plain_behind_run ⟨ho.2.2, hblank _⟩).abut (plain_behind_run ⟨ho'.2.2, hblank _⟩)
    · rw [if_neg ho, if_neg (mt h.orAhead_iff.1 ho)]
      exact .none
  · rw [separatorHit?_comma hs, separatorHit?_comma ht]
    have hcomma : Plain (some ',') := ⟨by decide, by decide⟩
    refine .some ⟨by simp, by simp, _, _, comma_append_eq hs, comma_append_eq ht,
      h₁.dropWhile uniform_isBlank, fun _ _ => ?_⟩
    simp only [behind_append, behind_cons]
    exact (hcomma.behind (hblank _)).abut (hcomma.behind (hblank _))

/-! ## Clocks -/

theorem posedgeHit?_rel (h : Corresponds r s t)
    (hb : insideWord before = insideWord before') :
    Option.Rel (SameNames r) (posedgeHit? before s) (posedgeHit? before' t) := by
  have hw := h.dropWhile uniform_isWord
  -- the clock may be only the beginning of a word
  have hname := (hw.dropWhile uniform_isBlank).identRest_eq
  rw [posedgeHit?_eq, posedgeHit?_eq]
  simp only [← hb, h.leadingWord_eq, r.onWord_eq_iff (k := "posedge".toList) (by decide),
    ne_eq, hw.takeWhile_isBlank_eq_nil_iff, hname, r.isIdentifier_onWord]
  split
  · exact .some ⟨_, rfl, rfl⟩
  · exact .none

end Corresponds

end HdlReview.Scan
