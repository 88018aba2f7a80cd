import HdlReview.Proofs.Lint.Review
import HdlReview.Proofs.Scan.Tokens

/-!
# Keywords and identifiers

Keywords are looked for by a pattern of their own, which asks for the keyword between two word
boundaries, while identifiers are taken from the source one after the other. Both see the same words.
A keyword is an identifier, so between two word boundaries it is a whole word, and the identifiers of
a source are its whole words in the form of an identifier. What merely looks like the keyword is seen
by neither: the keyword inside of a longer identifier, behind a digit, or before a letter beyond
ASCII.

Two rules only ask which keywords there are, so they can be said through the identifiers. And since a
line feed is in no word, a keyword is found in two sources with a line feed between them just if it
is found in one of the two.

## Main results

* `mem_findAll_wholeWord_iff`: the matches of a keyword are the places at which it is a whole word
* `contains_word_iff_mem_identifiers`, `contains_wholeWord_iff_mem_identifiers`: keywords that are
  found are identifiers
* `latchFindings_ne_nil_iff`, `caseFindings_ne_nil_iff`: the rules that ask for keywords
* `keyword_search_exact`: all of this for every keyword and every source
-/

namespace HdlReview.Scan

open HdlReview.Text

variable {s t x : List Char} {w : String} {m : Match}

/-! ## Matches of a keyword -/

theorem exposed_word (caseless : Bool) (choices : List (List Char)) :
    (Pattern.word caseless choices).Exposed :=
  exposed_wordHit nofun fun _ _ => rfl

/-- **The matches of a keyword** are the places at which it is a whole word. -/
theorem mem_findAll_wholeWord_iff :
    m ∈ findAll (.wholeWord w) s ↔
      m.text = w.toList ∧ m.groups = [] ∧ ∃ rest, WordAt s w.toList m.start rest := by
  rw [Pattern.wholeWord, (exposed_word false [w.toList]).mem_findAll_iff]
  change HitAt (.wholeWord w) s m.start m.hit ↔ _
  rw [hitAt_wholeWord_iff, ← and_assoc, Match.hit, Hit.mk.injEq]

/-- Between two word boundaries a keyword is a whole word. -/
theorem delimitedAt_iff_exists_wordAt {i : Nat} (hx : isIdentifier x = true) :
    DelimitedAt s x i ↔ ∃ rest, WordAt s x i rest := by
  rw [delimitedAt_iff, IdentifierAt]
  exact and_iff_right hx

/-! ## Keywords among the identifiers -/

/-- **The keywords that are found** are identifiers of the source. -/
theorem contains_word_iff_mem_identifiers {choices : List (List Char)}
    (hchoices : ∀ k ∈ choices, isIdentifier k = true) :
    contains (.word false choices) s = true ↔ ∃ k ∈ choices, k ∈ identifiers s := by
  rw [contains_word_iff]
  constructor
  · rintro ⟨k, hword, hk⟩
    rw [isChoice_false_iff] at hk
    exact ⟨k, hk, mem_identifiers_iff.2 ⟨hchoices k hk, hword⟩⟩
  · rintro ⟨k, hk, hmem⟩
    exact ⟨k, (mem_identifiers_iff.1 hmem).2, isChoice_false_iff.2 hk⟩

theorem contains_wholeWord_iff_mem_identifiers (hw : isIdentifier w.toList = true) :
    contains (.wholeWord w) s = true ↔ w.toList ∈ identifiers s := by
  rw [Pattern.wholeWord, contains_word_iff_mem_identifiers (List.forall_mem_singleton.2 hw)]
  simp only [List.mem_singleton, exists_eq_left]

theorem contains_caseWord_iff_mem_identifiers :
    contains .caseWord s = true ↔ "case".toList ∈ identifiers s ∨ "casex".toList ∈ identifiers s ∨
      "casez".toList ∈ identifiers s := by
  rw [Pattern.caseWord, contains_word_iff_mem_identifiers (by decide)]
  simp only [List.mem_cons, List.not_mem_nil, or_false, exists_eq_or_imp, exists_eq_left]

/-- At a character that is in no word, a source falls apart into two with their own identifiers. -/
theorem mem_identifiers_append_cons {c : Char} (hc : isWord c = false) :
    x ∈ identifiers (s ++ c :: t) ↔ x ∈ identifiers s ∨ x ∈ identifiers t := by
  simp only [identifiers_eq_words, words_append_cons hc, List.mem_eraseDups, List.mem_filter,
    List.mem_append, or_and_right]

/-- **A keyword in two sources** with a line feed between them is in one of the two. -/
theorem contains_wholeWord_append_newline (hw : isIdentifier w.toList = true) (s t : List Char) :
    contains (.wholeWord w) (s ++ '\n' :: t) =
      (contains (.wholeWord w) s || contains (.wholeWord w) t) := by
  rw [Bool.eq_iff_iff, Bool.or_eq_true]
  simp only [contains_wholeWord_iff_mem_identifiers hw]
  exact mem_identifiers_append_cons (by decide)

end HdlReview.Scan

namespace HdlReview.Lint

open HdlReview.Text HdlReview.Scan

variable {s : List Char}

/-! ## Rules that ask for keywords -/

/-- The latch rule has a line to report just if there is an `if`. -/
theorem latchFindings_ne_nil_iff :
    latchFindings s ≠ [] ↔
      contains (.wholeWord "if") s = true ∧ ¬ contains (.wholeWord "else") s = true := by
  rw [latchFindings]
  split
  · next helse => exact iff_of_false (fun hne => hne rfl) fun h => h.2 helse
  · next helse =>
    rw [contains, lineOfFirst]
    cases search (.wholeWord "if") s with
    | none => simp
    | some m => simpa using helse

theorem caseFindings_ne_nil_iff :
    caseFindings s ≠ [] ↔
      contains .caseWord s = true ∧ ¬ contains (.wholeWord "default") s = true := by
  rw [caseFindings, findingIf_ne_nil_iff, Bool.and_eq_true, Bool.not_eq_true', Bool.not_eq_true]

/-- **Searching for a keyword agrees with listing the identifiers.** The matches of a keyword are, in
order, the places at which it is a whole word, and these are just the places at which it stands
between two word boundaries; so it is found just if it is among the identifiers of the source, and in
two sources with a line feed between them just if it is in one of them. Hence the latch rule reports
just if `if` is an identifier of the source and `else` is not, and the rule on cases just if one of
the words that open a case statement is and `default` is not. -/
theorem keyword_search_exact (s : List Char) :
    (∀ w : String, isIdentifier w.toList = true →
      (findAll (.wholeWord w) s).Pairwise (fun m m' => m.start < m'.start) ∧
      (∀ m, m ∈ findAll (.wholeWord w) s ↔
        m.text = w.toList ∧ m.groups = [] ∧ ∃ rest, WordAt s w.toList m.start rest) ∧
      (∀ i, DelimitedAt s w.toList i ↔ ∃ rest, WordAt s w.toList i rest) ∧
      (contains (.wholeWord w) s = true ↔ w.toList ∈ identifiers s) ∧
      ∀ t, contains (.wholeWord w) (s ++ '\n' :: t) =
        (contains (.wholeWord w) s || contains (.wholeWord w) t)) ∧
    (Rule.latchInference.check s ≠ [] ↔
      "if".toList ∈ identifiers s ∧ "else".toList ∉ identifiers s) ∧
    (Rule.caseDefault.check s ≠ [] ↔
      ("case".toList ∈ identifiers s ∨ "casex".toList ∈ identifiers s ∨
        "casez".toList ∈ identifiers s) ∧ "default".toList ∉ identifiers s) := by
  refine ⟨?_, ?_, ?_⟩
  · intro w hw
    exact ⟨pairwise_start_findAll _ s, fun m => mem_findAll_wholeWord_iff,
      fun i => delimitedAt_iff_exists_wordAt hw, contains_wholeWord_iff_mem_identifiers hw,
      contains_wholeWord_append_newline hw s⟩
  · rw [Rule.check_ne_nil_iff]
    change latchFindings s ≠ [] ↔ _
    rw [latchFindings_ne_nil_iff, contains_wholeWord_iff_mem_identifiers (by decide),
      contains_wholeWord_iff_mem_identifiers (by decide)]
  · rw [Rule.check_ne_nil_iff]
    change caseFindings s ≠ [] ↔ _
    rw [caseFindings_ne_nil_iff, contains_caseWord_iff_mem_identifiers,
      contains_wholeWord_iff_mem_identifiers (by decide)]

/-- Words that look like `if`, and `if` itself at the end. -/
def lookalikes : List Char :=
  "notif 1if ifé _if if".toList

/-- Only the last word is found, and a word that is broken by a line feed is found in no part. -/
theorem keyword_search_exact_lookalikes :
    isIdentifier "if".toList = true ∧
    findAll (.wholeWord "if") lookalikes = [⟨18, "if".toList, []⟩] ∧
    (∃ rest, WordAt lookalikes "if".toList 18 rest) ∧ DelimitedAt lookalikes "if".toList 18 ∧
    "if".toList ∈ identifiers lookalikes ∧ Rule.latchInference.check lookalikes ≠ [] ∧
    contains (.wholeWord "if") ("i".toList ++ '\n' :: "f".toList) = false := by
  have hif : isIdentifier "if".toList = true := by decide
  have hfound : findAll (.wholeWord "if") lookalikes = [⟨18, "if".toList, []⟩] := by decide +kernel
  have helse : "else".toList ∉ identifiers lookalikes := by decide +kernel
  have hneither : (contains (.wholeWord "if") "i".toList ||
      contains (.wholeWord "if") "f".toList) = false := by decide +kernel
  obtain ⟨hwords, hlatch, -⟩ := keyword_search_exact lookalikes
  obtain ⟨-, hmatches, hdelimited, hcontains, -⟩ := hwords "if" hif
  obtain ⟨-, -, -, -, hjoin⟩ := (keyword_search_exact "i".toList).1 "if" hif
  have hword := ((hmatches ⟨18, "if".toList, []⟩).1 (by rw [hfound]; simp)).2.2
  have hmem : "if".toList ∈ identifiers lookalikes := hcontains.1 (by decide +kernel)
  exact ⟨hif, hfound, hword, (hdelimited 18).2 hword, hmem, hlatch.2 ⟨hmem, helse⟩,
    (hjoin "f".toList).trans hneither⟩

end HdlReview.Lint
