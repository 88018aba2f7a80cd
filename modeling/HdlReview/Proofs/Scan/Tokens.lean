import HdlReview.Proofs.Scan.Identifiers

/-!
# Identifiers as tokens

A source falls apart into its words: cut at every character that is no word character, the pieces
that are not empty are its maximal runs of word characters, in order. The pattern of identifiers
asks for less than a whole word, namely for a text in the form of an identifier between two word
boundaries. Since all characters of an identifier are word characters, such a text is nevertheless a
whole word, and it is never the beginning or the end of a longer one, be it that a digit stands
before it or a letter beyond ASCII behind it. So the identifiers of a source are a matter of its
words alone, whatever stands between them.

## Main definitions

* `words s`: the maximal runs of word characters, in order
* `PlainRunAt s x i`: a whole word of ASCII letters, digits and underscores, no digit at its front
* `IsBoundary a b`, `DelimitedAt s x i`: word boundaries, and a text in the form of an identifier
  between two of them

## Main results

* `words_append_run`: what stands between two words does not matter
* `delimited_iff_of_isRun`, `delimitedAt_iff`: between two word boundaries a run of word characters
  is a whole word, an identifier in particular
* `map_text_findAll_identifier`: the identifiers that are found are those among the words
* `identifiers_exact`: the matches of the pattern and the names that are listed
-/

namespace HdlReview.Scan

open HdlReview.Text

variable {before : Option Char} {position i : Nat} {a b g s w x : List Char}

/-! ## Words

Everything about the words of a source follows from one equation: at a character that is no word
character, a source falls apart into two, each with its own words. -/

/-- **The words of a source**: its maximal runs of word characters, in order. -/
def words (s : List Char) : List (List Char) :=
  (s.splitOnP fun c => !isWord c).filter (· != [])

@[simp] theorem words_nil : words [] = [] := rfl

theorem words_append_cons {c : Char} (hc : isWord c = false) (a b : List Char) :
    words (a ++ c :: b) = words a ++ words b := by
  unfold words
  rw [List.splitOnP_append_cons a b (by simp [hc]), List.filter_append]

theorem words_cons {c : Char} (hc : isWord c = false) (s : List Char) : words (c :: s) = words s :=
  words_append_cons hc [] s

theorem words_append_of_not_isWord (hg : ∀ c ∈ g, isWord c = false) : words (g ++ s) = words s := by
  induction g with
  | nil => rfl
  | cons c g ih =>
    rw [List.cons_append, words_cons (hg c (List.mem_cons_self ..))]
    exact ih fun d hd => hg d (List.mem_cons_of_mem c hd)

theorem words_of_isRun (hw : IsRun isWord w) : words w = [w] := by
  have hpieces : w.splitOnP (fun c => !isWord c) = [w] := by
    apply List.splitOnP_eq_singleton
    intro c hc
    simp [hw.all c hc]
  rw [words, hpieces]
  simp [hw.ne_nil]

/-- A run that does not go on is the first word. -/
theorem words_run_append (hw : IsRun isWord w) (hs : leadingWord s = []) :
    words (w ++ s) = w :: words s := by
  cases s with
  | nil => rw [List.append_nil, words_of_isRun hw, words_nil]
  | cons c s =>
    have hc : isWord c = false := leadingWord_eq_nil_iff.1 hs c rfl
    rw [words_append_cons hc, words_of_isRun hw, words_cons hc]
    rfl

/-- **The whole words of a source** are among its words. -/
theorem WholeWord.mem_words (hword : WholeWord s w) : w ∈ words s := by
  obtain ⟨a, b, rfl, hw, ha, hb⟩ := hword
  have hwords : words (w ++ b) = w :: words b := words_run_append hw (leadingWord_eq_nil_iff.2 hb)
  rw [List.append_assoc]
  rcases List.eq_nil_or_concat a with rfl | ⟨a, c, rfl⟩
  · simp [hwords]
  · -- the character before the word is in no word, so the source falls apart there
    rw [List.concat_append, words_append_cons (ha c (by simp)), hwords]
    simp

/-- **What stands between two words does not matter**, as long as it is not empty. -/
theorem words_append_run (hg : IsRun (fun c => !isWord c) g) (a b : List Char) :
    words (a ++ (g ++ b)) = words a ++ words b := by
  obtain ⟨c, g, rfl⟩ := List.exists_cons_of_ne_nil hg.ne_nil
  have hall : ∀ d ∈ c :: g, isWord d = false := fun d hd => by simpa using hg.all d hd
  rw [List.cons_append, words_append_cons (hall c (List.mem_cons_self ..)),
    words_append_of_not_isWord fun d hd => hall d (List.mem_cons_of_mem c hd)]

/-! ## The pattern of identifiers -/

/-- **A whole word that is plain**: it has ASCII letters, digits and underscores only, and no digit
at its front. -/
def PlainRunAt (s x : List Char) (i : Nat) : Prop :=
  (∃ rest, WordAt s x i rest) ∧ (∀ c ∈ x, c.isAlphanum = true ∨ c = '_') ∧
    ∀ c, x.head? = some c → c.isDigit = false

/-- **A word boundary**: of the characters on its two sides, just one is a word character. -/
def IsBoundary (a b : List Char) : Prop :=
  a.getLast?.any isWord ≠ b.head?.any isWord

/-- A text between two word boundaries. -/
def Delimited (a x b : List Char) : Prop :=
  IsBoundary a (x ++ b) ∧ IsBoundary (a ++ x) b

/-- **What the pattern of identifiers asks for at a place**: a letter or an underscore, then letters,
digits and underscores, all of them ASCII, between two word boundaries. -/
def DelimitedAt (s x : List Char) (i : Nat) : Prop :=
  ∃ a b, s = a ++ (x ++ b) ∧ a.length = i ∧ isIdentifier x = true ∧
    IsBoundary a (x ++ b) ∧ IsBoundary (a ++ x) b

/-- A letter, a digit or an underscore may start an identifier just if it is no digit. -/
theorem isIdentStart_iff {c : Char} :
    isIdentStart c = true ↔ isIdentRest c = true ∧ c.isDigit = false := by
  have hdigit : c.isAlpha = true → c.isDigit = false := by
    intro halpha
    rw [← Bool.not_eq_true]
    intro hd
    have hle : c.val ≤ '9'.val := of_decide_eq_true (Bool.and_eq_true_iff.1 hd).2
    -- the letters of either case come behind the digits
    rcases Bool.or_eq_true_iff.1 halpha with h | h
    · have hge : 'A'.val ≤ c.val := (of_decide_eq_true h).1
      exact absurd (UInt32.le_trans hge hle) (by decide)
    · have hge : 'a'.val ≤ c.val := of_decide_eq_true (Bool.and_eq_true_iff.1 h).1
      exact absurd (UInt32.le_trans hge hle) (by decide)
  simp only [isIdentStart, isIdentRest, Char.isAlphanum, Bool.or_eq_true, beq_iff_eq]
  constructor
  · rintro (halpha | rfl)
    · exact ⟨.inl (.inl halpha), hdigit halpha⟩
    · exact ⟨.inr rfl, by decide⟩
  · rintro ⟨(halpha | hd) | rfl, hnot⟩
    · exact .inl halpha
    · rw [hd] at hnot
      cases hnot
    · exact .inr rfl

theorem isIdentifier_iff :
    isIdentifier x = true ↔ x ≠ [] ∧ (∀ c ∈ x, c.isAlphanum = true ∨ c = '_') ∧
      ∀ c, x.head? = some c → c.isDigit = false := by
  have hrest : ∀ c, isIdentRest c = true ↔ c.isAlphanum = true ∨ c = '_' := fun c => by
    simp [isIdentRest]
  simp only [← hrest]
  cases x with
  | nil => simp [isIdentifier]
  | cons c x =>
    simp only [isIdentifier, Bool.and_eq_true, List.all_eq_true, isIdentStart_iff, List.mem_cons,
      forall_eq_or_imp, List.head?_cons, Option.some.injEq, forall_eq', ne_eq, reduceCtorEq,
      not_false_eq_true, true_and]
    exact and_right_comm

theorem plainRunAt_iff : PlainRunAt s x i ↔ IdentifierAt s x i := by
  rw [IdentifierAt, isIdentifier_iff]
  constructor
  · rintro ⟨⟨rest, hw⟩, hplain⟩
    have hne : x ≠ [] := by
      obtain ⟨a, -, -, hrun, -⟩ := hw
      exact hrun.ne_nil
    exact ⟨⟨hne, hplain⟩, rest, hw⟩
  · rintro ⟨⟨-, hplain⟩, hw⟩
    exact ⟨hw, hplain⟩

/-- Beside a word character, a boundary is a place with no word character on its other side. -/
theorem isBoundary_iff_of_head (hb : b.head?.any isWord = true) :
    IsBoundary a b ↔ ∀ c, a.getLast? = some c → isWord c = false := by
  rw [IsBoundary, hb, ne_eq, Bool.not_eq_true]
  exact insideWord_eq_false_iff

theorem isBoundary_iff_of_getLast (ha : a.getLast?.any isWord = true) :
    IsBoundary a b ↔ ∀ c, b.head? = some c → isWord c = false := by
  rw [IsBoundary, ha, ne_comm, ne_eq, Bool.not_eq_true]
  exact insideWord_eq_false_iff

/-- Before a run of word characters, a boundary is a place behind no word character. -/
theorem isBoundary_run_append (hx : IsRun isWord x) :
    IsBoundary a (x ++ b) ↔ ∀ c, a.getLast? = some c → isWord c = false := by
  apply isBoundary_iff_of_head
  rw [List.head?_append_of_ne_nil x hx.ne_nil, List.head?_eq_some_head hx.ne_nil]
  exact hx.all _ (List.head_mem hx.ne_nil)

theorem isBoundary_append_run (hx : IsRun isWord x) :
    IsBoundary (a ++ x) b ↔ ∀ c, b.head? = some c → isWord c = false := by
  apply isBoundary_iff_of_getLast
  rw [List.getLast?_append_of_ne_nil a hx.ne_nil, List.getLast?_eq_some_getLast hx.ne_nil]
  exact hx.all _ (List.getLast_mem hx.ne_nil)

/-- **Between two word boundaries a run of word characters is a whole word**: its first and its last
character are word characters, so none stands on the other sides of the boundaries. -/
theorem delimited_iff_of_isRun (hx : IsRun isWord x) :
    Delimited a x b ↔ (∀ c, a.getLast? = some c → isWord c = false) ∧
      ∀ c, b.head? = some c → isWord c = false := by
  rw [Delimited, isBoundary_run_append hx, isBoundary_append_run hx]

/-- **Between two word boundaries an identifier is a whole word**. -/
theorem delimitedAt_iff : DelimitedAt s x i ↔ IdentifierAt s x i := by
  constructor
  · rintro ⟨a, b, rfl, rfl, hx, hab⟩
    have hrun := isRun_of_isIdentifier hx
    exact ⟨hx, b, a, rfl, rfl, hrun, (delimited_iff_of_isRun hrun).1 hab⟩
  · rintro ⟨hx, b, a, rfl, rfl, hrun, hab⟩
    exact ⟨a, b, rfl, rfl, hx, (delimited_iff_of_isRun hrun).2 hab⟩

/-! ## Identifiers among the words -/

/-- **Induction over the words of a source**: it is empty, or starts with a character that is no word
character, or with a whole word. -/
@[elab_as_elim]
theorem word_induction {motive : List Char → Prop} (nil : motive [])
    (other : ∀ c s, isWord c = false → motive s → motive (c :: s))
    (word : ∀ w s, IsRun isWord w → leadingWord s = [] → motive s → motive (w ++ s))
    (s : List Char) : motive s := by
  -- a word is taken off as a whole, so the induction is on the length of what is left
  induction hn : s.length using Nat.strongRecOn generalizing s with
  | ind n ih =>
    rcases s with _ | ⟨c, t⟩
    · exact nil
    · cases hc : isWord c with
      | false => exact other c t hc (ih t.length (by simp [← hn]) t rfl)
      | true =>
        have hw : IsRun isWord (c :: t.takeWhile isWord) := by
          refine ⟨List.cons_ne_nil _ _, fun d hd => ?_⟩
          rcases List.mem_cons.1 hd with rfl | hd
          · exact hc
          · exact List.mem_takeWhile_imp hd
        have hlen : (t.dropWhile isWord).length < n := by
          have hle := (List.dropWhile_sublist isWord (l := t)).length_le
          rw [List.length_cons] at hn
          omega
        rw [← List.takeWhile_append_dropWhile (p := isWord) (l := t)]
        exact word _ _ hw (leadingWord_dropWhile_isWord t) (ih _ hlen _ rfl)

/-- **The identifiers that are found** from a place on are those among the words, if no word goes on
there. -/
theorem map_text_findFrom_identifier (hbefore : insideWord before = true → leadingWord s = []) :
    (findFrom .identifier 0 before position s).map (·.text) = (words s).filter isIdentifier := by
  induction s using word_induction generalizing before position with
  | nil => rfl
  | other c s hc ih =>
    have hnone : Pattern.identifier.hit? before (c :: s) = none := by
      simp [Pattern.hit?, wordHit?, leadingWord_cons hc]
    rw [findFrom, hnone, words_cons hc]
    apply ih
    -- the character before the next place is of no word, so a word may start there
    intro hin
    exact absurd (show isWord c = true from hin) (by simp [hc])
  | word w s hw hs ih =>
    have hlead : leadingWord (w ++ s) = w := leadingWord_run hw hs
    have hin : insideWord before = false := by
      rw [← Bool.not_eq_true]
      intro h
      exact hw.ne_nil (hlead.symm.trans (hbefore h))
    have hrest := fun before' position' => @ih before' position' fun _ => hs
    rw [words_run_append hw hs]
    -- the word is found as a whole, or nothing in it is
    by_cases hident : isIdentifier w = true
    · have hhit : Pattern.identifier.hit? before (w ++ s) = some ⟨w, []⟩ := by
        refine wordHit?_eq_some_iff.2 ⟨hin, ?_⟩
        rw [hlead]
        exact ⟨hw.ne_nil, hident, rfl⟩
      rw [List.filter_cons_of_pos hident, ← hrest (behind before w) (position + w.length)]
      exact congrArg (List.map _) (findFrom_hit (h := ⟨w, []⟩) hw.ne_nil hhit position)
    · have hnone : Pattern.identifier.hit? before (w ++ s) = none := by
        rw [Pattern.hit?, wordHit?, hlead]
        simp [hident]
      have hbarren := barren_word (p := .identifier) (by decide) hw.all hnone
      rw [List.filter_cons_of_neg hident, findFrom_append hbarren]
      exact hrest _ _

/-- **The texts of all matches** of the pattern of identifiers. -/
theorem map_text_findAll_identifier (s : List Char) :
    (findAll .identifier s).map (·.text) = (words s).filter isIdentifier :=
  map_text_findFrom_identifier fun hin => absurd hin (by decide)

theorem identifiers_eq_words (s : List Char) :
    identifiers s = ((words s).filter isIdentifier).eraseDups := by
  rw [identifiers, map_text_findAll_identifier]

/-- **The pattern of identifiers tokenises a source.** Its matches are in order, and are just the
whole words of ASCII letters, digits and underscores that start with no digit; these are also just
the texts in the form of an identifier between two word boundaries, so that no match is cut out of a
longer word. The identifiers of a source are the texts of the matches without later repetitions,
each once in order of first appearance, and its signals are those of them that are not structural
keywords. Hence nothing changes if other characters, that are no word characters either, stand
between two words. -/
theorem identifiers_exact (s : List Char) :
    (findAll .identifier s).Pairwise (fun m m' => m.start < m'.start) ∧
    (∀ m, m ∈ findAll .identifier s ↔ m.groups = [] ∧ PlainRunAt s m.text m.start) ∧
    (∀ x i, DelimitedAt s x i ↔ PlainRunAt s x i) ∧
    (findAll .identifier s).map (·.text) = (words s).filter isIdentifier ∧
    identifiers s = ((words s).filter isIdentifier).eraseDups ∧
    (identifiers s).Nodup ∧ InOrder (PlainRunAt s) (identifiers s) ∧
    (∀ x, x ∈ orderedSignals s ↔ (∃ i, PlainRunAt s x i) ∧ x ∉ structuralKeywords) ∧
    ∀ a g b g', s = a ++ (g ++ b) → IsRun (fun c => !isWord c) g → IsRun (fun c => !isWord c) g' →
      identifiers (a ++ (g' ++ b)) = identifiers s ∧
        orderedSignals (a ++ (g' ++ b)) = orderedSignals s := by
  have hplain : ∀ x i, IdentifierAt s x i ↔ PlainRunAt s x i := fun x i => plainRunAt_iff.symm
  refine ⟨pairwise_start_findAll _ s, ?_, ?_, map_text_findAll_identifier s,
    identifiers_eq_words s, nodup_eraseDups _, (inOrder_identifiers s).congr hplain, ?_, ?_⟩
  · intro m
    rw [exposed_identifier.mem_findAll_iff, hitAt_identifier_iff, plainRunAt_iff]
    constructor
    · rintro ⟨x, he, hx⟩
      obtain rfl : m.text = x := congrArg Hit.text he
      exact ⟨congrArg Hit.groups he, hx⟩
    · rintro ⟨hgroups, hx⟩
      exact ⟨m.text, congrArg (Hit.mk m.text) hgroups, hx⟩
  · intro x i
    rw [delimitedAt_iff, plainRunAt_iff]
  · intro x
    rw [(inOrder_orderedSignals s).mem_iff]
    simp only [hplain, exists_and_right]
  · rintro a g b g' rfl hg hg'
    -- both sources have the words of `a` and then those of `b`
    have hsame : identifiers (a ++ (g' ++ b)) = identifiers (a ++ (g ++ b)) := by
      rw [identifiers_eq_words, identifiers_eq_words, words_append_run hg, words_append_run hg']
    exact ⟨hsame, by rw [orderedSignals, orderedSignals, hsame]⟩

/-- Of the words `2a`, `abé_x²`, `if` and `q_1` only the last two are identifiers, and what stands
between these may as well be a line break. -/
theorem identifiers_exact_lineBreak :
    IsRun (fun c => !isWord c) "<=".toList ∧ IsRun (fun c => !isWord c) "\n".toList ∧
    identifiers ("2a;abé_x²;if".toList ++ ("<=".toList ++ "q_1".toList)) =
      ["if".toList, "q_1".toList] ∧
    identifiers ("2a;abé_x²;if".toList ++ ("\n".toList ++ "q_1".toList)) =
      identifiers ("2a;abé_x²;if".toList ++ ("<=".toList ++ "q_1".toList)) ∧
    orderedSignals ("2a;abé_x²;if".toList ++ ("\n".toList ++ "q_1".toList)) =
      orderedSignals ("2a;abé_x²;if".toList ++ ("<=".toList ++ "q_1".toList)) := by
  have hmark : IsRun (fun c => !isWord c) "<=".toList := by decide
  have hbreak : IsRun (fun c => !isWord c) "\n".toList := by decide
  refine ⟨hmark, hbreak, by decide +kernel, ?_⟩
  obtain ⟨-, -, -, -, -, -, -, -, hbetween⟩ :=
    identifiers_exact ("2a;abé_x²;if".toList ++ ("<=".toList ++ "q_1".toList))
  exact hbetween _ _ _ _ rfl hmark hbreak

end HdlReview.Scan
