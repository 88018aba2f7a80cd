import HdlReview.Proofs.Scan.Forms

/-!
# Coherent queries

The rules ask a source for the first match of a pattern, for all matches, whether there is a match,
and on which line. The answers belong together: they are all read off from one list of matches, whose
spans lie in the source one behind the other. The list misses nothing. Where a text has the form that
the pattern asks for, a match starts or a match that started before is still going on; so what is
passed over are only texts that overlap with a match, such as the second of two separators that share
a blank.

A search for all matches goes on behind each match, and it makes progress because no pattern has the
empty text for its form. Both facts are proved for one step of the search first.

## Main definitions

* `Pattern.named`: the patterns of the rules
* `Pattern.InUse p`: the patterns of the rules and those of single ASCII words

## Main results

* `pairwise_stop_findAll`: no two matches overlap
* `fitsAt_of_mem_findAll`, `exists_mem_findAll_of_fitsAt`: matches and forms
* `search_eq_head?_findAll`: the first match is the first of all
* `queries_coherent`: all queries of all patterns in use
-/

namespace HdlReview.Scan

open HdlReview.Text

variable {p : Pattern} {before : Option Char} {position skip i : Nat} {a b s : List Char} {h : Hit}
  {m : Match}

/-! ## Forms of matches -/

/-- No pattern has the empty text for its form. -/
theorem Pattern.Fits.text_ne_nil (hp : p.Worded) (hfits : p.Fits a h b) : h.text ≠ [] := by
  cases p with
  | word caseless choices => exact (isRun_of_isChoice hp hfits.1).ne_nil
  | identifier => exact (isRun_of_isIdentifier hfits.1).ne_nil
  | header =>
    obtain ⟨gap, list, rfl, -⟩ := hfits
    simp [headerText]
  | alwaysHeader =>
    obtain ⟨gap, gap', list, rfl, -⟩ := hfits
    simp
  | separator =>
    obtain ⟨⟨g, g'⟩ | ⟨g, g'⟩, rfl⟩ := hfits
    · simp [Separator.text]
    · simp [Separator.text]
  | blocking =>
    obtain ⟨rfl, -⟩ := hfits
    simp
  | nonBlocking =>
    obtain rfl := hfits
    simp
  | posedge =>
    obtain ⟨gap, name, rfl, -⟩ := hfits
    simp
  | assignment =>
    obtain ⟨name, gap, mark, rfl, -, hname, -⟩ := hfits
    simp [(isRun_of_isIdentifier hname).ne_nil]

/-- What is captured is a part of what is matched. -/
theorem Pattern.Fits.infix_of_mem_groups (hfits : p.Fits a h b) : ∀ g ∈ h.groups, g <:+: h.text := by
  cases p with
  | word caseless choices => simp [hfits.2.2]
  | identifier => simp [hfits.2.2]
  | header =>
    obtain ⟨gap, list, rfl, -⟩ := hfits
    exact List.forall_mem_singleton.2 ⟨'@' :: (gap ++ ['(']), [')'], by simp [headerText]⟩
  | alwaysHeader =>
    obtain ⟨gap, gap', list, rfl, -⟩ := hfits
    refine List.forall_mem_singleton.2 ⟨"always".toList ++ (gap ++ '@' :: (gap' ++ ['('])), [')'], ?_⟩
    simp [headerText]
  | separator =>
    obtain ⟨sep, rfl⟩ := hfits
    simp
  | blocking =>
    obtain ⟨rfl, -⟩ := hfits
    simp
  | nonBlocking =>
    obtain rfl := hfits
    simp
  | posedge =>
    obtain ⟨gap, name, rfl, -⟩ := hfits
    exact List.forall_mem_singleton.2 ⟨"posedge".toList ++ gap, [], by simp⟩
  | assignment =>
    obtain ⟨name, gap, mark, rfl, -⟩ := hfits
    exact List.forall_mem_singleton.2 ⟨[], gap ++ mark, by simp⟩

theorem fitsAt_of_hitAt (hp : p.Worded) (hh : HitAt p s i h) : FitsAt p s i h := by
  obtain ⟨a, t, rfl, rfl, hh⟩ := hh
  obtain ⟨b, rfl, hfits⟩ := fits_of_hit? hp hh
  exact ⟨a, b, rfl, rfl, hfits⟩

theorem FitsAt.exists_hitAt (hp : p.Worded) (hfits : FitsAt p s i h) :
    ∃ h', HitAt p s i h' ∧ h.text <+: h'.text := by
  obtain ⟨a, b, rfl, rfl, hfits⟩ := hfits
  obtain ⟨h', hh', hprefix⟩ := exists_hit?_of_fits hp hfits
  exact ⟨h', ⟨a, _, rfl, rfl, hh'⟩, hprefix⟩

theorem FitsAt.lt_and_le (hp : p.Worded) (hfits : FitsAt p s i h) :
    i < i + h.text.length ∧ i + h.text.length ≤ s.length := by
  obtain ⟨a, b, rfl, rfl, hfits⟩ := hfits
  have hpos : 0 < h.text.length := List.length_pos_iff.2 (hfits.text_ne_nil hp)
  simp only [List.length_append]
  omega

/-! ## Spans -/

/-- **One step of the search** makes progress, whatever character stands before. -/
theorem text_ne_nil_of_hit? (hp : p.Worded) (hh : p.hit? before s = some h) : h.text ≠ [] := by
  have hbefore : behind none before.toList = before := by cases before <;> rfl
  rw [← hbefore] at hh
  obtain ⟨b, -, hfits⟩ := fits_of_hit? hp hh
  exact hfits.text_ne_nil hp

/-- **One step of the search** goes on behind the match. -/
theorem stop_le_start_of_mem_findFrom (hne : h.text ≠ [])
    (hm : m ∈ findFrom p (h.text.length - 1) before (position + 1) s) :
    (Match.ofHit position h).stop ≤ m.start := by
  have hpos : 0 < h.text.length := List.length_pos_iff.2 hne
  have hle := add_skip_le_start_of_mem_findFrom hm
  simp only [Match.stop, Match.ofHit]
  omega

theorem pairwise_stop_findFrom (hp : p.Worded) :
    (findFrom p skip before position s).Pairwise fun m m' => m.stop ≤ m'.start := by
  fun_induction findFrom p skip before position s with
  | case1 => exact .nil
  | case2 skip before position c s ih => exact ih
  | case3 before position c s h hh ih =>
    refine .cons ?_ ih
    intro m' hm'
    exact stop_le_start_of_mem_findFrom (text_ne_nil_of_hit? hp hh) hm'
  | case4 before position c s hnone ih => exact ih

/-- **No two matches overlap**. -/
theorem pairwise_stop_findAll (hp : p.Worded) (s : List Char) :
    (findAll p s).Pairwise fun m m' => m.stop ≤ m'.start :=
  pairwise_stop_findFrom hp

/-- **Every match that is found** has the form that the pattern asks for. -/
theorem fitsAt_of_mem_findAll (hp : p.Worded) (hm : m ∈ findAll p s) : FitsAt p s m.start m.hit :=
  fitsAt_of_hitAt hp (hitAt_of_mem_findAll hm)

/-- **Nothing longer has the form** at the place of a match. -/
theorem text_prefix_of_mem_findAll (hp : p.Worded) (hm : m ∈ findAll p s)
    (hfits : FitsAt p s m.start h) : h.text <+: m.text := by
  obtain ⟨h', hh', hprefix⟩ := hfits.exists_hitAt hp
  obtain rfl := hh'.unique (hitAt_of_mem_findAll hm)
  exact hprefix

/-- **No form is missed**: where a text has the form, a match is going on. -/
theorem exists_mem_findAll_of_fitsAt (hp : p.Worded) (hfits : FitsAt p s i h) :
    ∃ m ∈ findAll p s, m.start ≤ i ∧ i < m.stop := by
  obtain ⟨h', hh', -⟩ := hfits.exists_hitAt hp
  rcases mem_or_inside_of_hitAt hh' with hm | ⟨m, hm, hstart, hstop⟩
  · -- the match starts just there
    exact ⟨_, hm, Nat.le_refl i, ((fitsAt_of_hitAt hp hh').lt_and_le hp).1⟩
  · exact ⟨m, hm, Nat.le_of_lt hstart, hstop⟩

/-! ## The first of all matches -/

theorem head?_findFrom :
    (findFrom p 0 before position s).head? = searchFrom p before position s := by
  induction s generalizing before position with
  | nil => rfl
  | cons c s ih =>
    rw [findFrom, searchFrom]
    cases p.hit? before (c :: s) with
    | some h => rfl
    | none => exact ih

/-- **The first match** is the first of all matches. -/
theorem search_eq_head?_findAll (p : Pattern) (s : List Char) :
    search p s = (findAll p s).head? :=
  head?_findFrom.symm

theorem search_eq_none_iff_findAll : search p s = none ↔ findAll p s = [] := by
  rw [search_eq_head?_findAll, List.head?_eq_none_iff]

theorem contains_iff_findAll_ne_nil : contains p s = true ↔ findAll p s ≠ [] := by
  rw [contains, Option.isSome_iff_ne_none, ne_eq, search_eq_none_iff_findAll]

/-! ## The patterns in use -/

/-- **The patterns of the rules**. -/
def Pattern.named : List Pattern :=
  [.identifier, .header, .alwaysHeader, .separator, .edge, .blocking, .nonBlocking, .posedge,
    .assignment, .caseWord, .wholeWord "default", .wholeWord "if", .wholeWord "else",
    .caselessWord "process", .caselessWord "else", .caselessWord "variable",
    .caselessWord "signal"]

/-- **The patterns in use**: those of the rules, and those of single ASCII words, with or without
regard to case. -/
def Pattern.InUse (p : Pattern) : Prop :=
  p ∈ Pattern.named ∨ ∃ caseless w, IsRun isIdentRest w ∧ p = .word caseless [w]

theorem Pattern.InUse.worded (hp : p.InUse) : p.Worded := by
  rcases hp with hp | ⟨caseless, w, hw, rfl⟩
  · have hnamed : ∀ q ∈ Pattern.named, ∀ k ∈ q.choices, IsRun isWord k := by decide
    exact hnamed p hp
  · refine List.forall_mem_singleton.2 ⟨hw.ne_nil, ?_⟩
    exact fun c hc => isWord_of_isIdentRest (hw.all c hc)

/-- **The queries of a pattern in use are coherent.** All matches have spans that are not empty, lie
in the source and do not overlap, from left to right. The text of a match is the longest at its place
that has the form that the pattern asks for, and what it captures is a part of it. No text of the
form starts outside of the spans. The first match is the first of all, there is a match just if there
are any, and the line of the first is the line on which it starts. -/
theorem queries_coherent (hp : p.InUse) (s : List Char) :
    (∀ m ∈ findAll p s, m.start < m.stop ∧ m.stop ≤ s.length ∧ FitsAt p s m.start m.hit ∧
      (∀ h, FitsAt p s m.start h → h.text <+: m.text) ∧ ∀ g ∈ m.groups, g <:+: m.text) ∧
    (findAll p s).Pairwise (fun m m' => m.start < m'.start ∧ m.stop ≤ m'.start) ∧
    (∀ i h, FitsAt p s i h → ∃ m ∈ findAll p s, m.start ≤ i ∧ i < m.stop) ∧
    search p s = (findAll p s).head? ∧ (search p s = none ↔ findAll p s = []) ∧
    (contains p s = true ↔ findAll p s ≠ []) ∧
    lineOfFirst p s = (findAll p s).head?.map fun m => lineOf s m.start := by
  have hworded := hp.worded
  refine ⟨?_, (pairwise_start_findAll p s).and (pairwise_stop_findAll hworded s), ?_,
    search_eq_head?_findAll p s, search_eq_none_iff_findAll, contains_iff_findAll_ne_nil, ?_⟩
  · intro m hm
    have hfits := fitsAt_of_mem_findAll hworded hm
    obtain ⟨hlt, hle⟩ := hfits.lt_and_le hworded
    refine ⟨hlt, hle, hfits, fun h => text_prefix_of_mem_findAll hworded hm, ?_⟩
    obtain ⟨a, b, -, -, hfits⟩ := hfits
    exact hfits.infix_of_mem_groups
  · intro i h hfits
    exact exists_mem_findAll_of_fitsAt hworded hfits
  · rw [lineOfFirst, search_eq_head?_findAll]

/-- Two separators that share a blank: only the first is found, and the second starts in its span. -/
theorem queries_coherent_sharedBlank :
    Pattern.separator.InUse ∧
    findAll .separator "a or or b".toList = [⟨1, " or ".toList, []⟩] ∧
    FitsAt .separator "a or or b".toList 4 ⟨" or ".toList, []⟩ ∧
    ∃ m ∈ findAll .separator "a or or b".toList, m.start ≤ 4 ∧ 4 < m.stop := by
  have huse : Pattern.separator.InUse := .inl (by decide)
  have hblank : IsRun isBlank [' '] := by decide
  have hfits : FitsAt .separator "a or or b".toList 4 ⟨" or ".toList, []⟩ :=
    ⟨"a or".toList, "b".toList, rfl, rfl, .word ⟨[' '], hblank⟩ ⟨[' '], hblank⟩, rfl⟩
  refine ⟨huse, by decide +kernel, hfits, ?_⟩
  obtain ⟨-, -, hcovered, -⟩ := queries_coherent huse "a or or b".toList
  exact hcovered 4 _ hfits

end HdlReview.Scan
