import HdlReview.Proofs.Scan.Headers
import HdlReview.Proofs.Scan.Marks
import HdlReview.Proofs.Scan.Tokens
import HdlReview.Proofs.Scan.WrittenLists
import HdlReview.Proofs.Text.Letters

/-!
# The forms of patterns

What a pattern asks for can be said without matching anything: it is the form of a text, together
with what may stand right before the text and right behind it. A text of the form need not be what
is matched, for it may go on: a separator with some of the blanks behind it is a separator as well,
and so is a clock with the first letters of its name. What is matched at a place is the longest text
of the form, and something is matched just if any text there has the form.

Patterns of words ask for word boundaries. Between two of them there is one whole word, provided
that the words to choose from consist of word characters only; folding the case does not change
that, for it moves no character into or out of words.

## Main definitions

* `Pattern.Fits p a h b`: between `a` and `b`, the text of `h` has the form that `p` asks for
* `FitsAt p s i h`: the same at a place of a source
* `Pattern.Worded p`: the words to choose from consist of word characters

## Main results

* `fits_of_hit?`: what is matched has the form
* `exists_hit?_of_fits`: where a text has the form, something is matched, and nothing shorter
-/

namespace HdlReview.Scan

open HdlReview.Text

variable {p : Pattern} {a b s x : List Char} {i : Nat} {h : Hit}

/-! ## Forms -/

/-- **What a pattern asks for**: the form of a text and of the parts of it that are captured, and
what stands before it and behind it. -/
def Pattern.Fits (p : Pattern) (a : List Char) (h : Hit) (b : List Char) : Prop :=
  match p with
  | word caseless choices =>
    isChoice caseless choices h.text = true ∧ Delimited a h.text b ∧ h.groups = []
  | identifier => isIdentifier h.text = true ∧ Delimited a h.text b ∧ h.groups = []
  | header =>
    ∃ gap list, h = ⟨headerText gap list, [list]⟩ ∧ (∀ c ∈ gap, isBlank c = true) ∧
      ∀ c ∈ list, c ≠ '(' ∧ c ≠ ')'
  | alwaysHeader =>
    ∃ gap gap' list, h = ⟨"always".toList ++ gap ++ headerText gap' list, [list]⟩ ∧
      (∀ c ∈ gap, isBlank c = true) ∧ (∀ c ∈ gap', isBlank c = true) ∧
      ∀ c ∈ list, c ≠ '(' ∧ c ≠ ')' ∧ c ≠ '\n'
  | separator => ∃ sep : Separator, h = ⟨sep.text, []⟩
  | blocking =>
    h = ⟨['='], []⟩ ∧ (a.getLast? ≠ some '<' ∧ a.getLast? ≠ some '>' ∧ a.getLast? ≠ some '=' ∧
      a.getLast? ≠ some '!') ∧ b.head? ≠ some '='
  | nonBlocking => h = ⟨['<', '='], []⟩
  | posedge =>
    ∃ gap name, h = ⟨"posedge".toList ++ (gap ++ name), [name]⟩ ∧
      IsBoundary a (h.text ++ b) ∧ IsRun isBlank gap ∧ isIdentifier name = true
  | assignment =>
    ∃ name gap mark, h = ⟨name ++ (gap ++ mark), [name]⟩ ∧
      IsBoundary a (h.text ++ b) ∧ isIdentifier name = true ∧ (∀ c ∈ gap, isBlank c = true) ∧
      mark ∈ assignmentMarks ∧ b.head? ≠ some '='

/-- **A text at a place of a source** has the form that a pattern asks for. -/
def FitsAt (p : Pattern) (s : List Char) (i : Nat) (h : Hit) : Prop :=
  ∃ a b, s = a ++ (h.text ++ b) ∧ a.length = i ∧ p.Fits a h b

/-! ## Words -/

/-- The words that a pattern chooses from. -/
def Pattern.choices : Pattern → List (List Char)
  | word _ choices => choices
  | _ => []

/-- **The words to choose from consist of word characters**. -/
def Pattern.Worded (p : Pattern) : Prop :=
  ∀ k ∈ p.choices, IsRun isWord k

/-- A word in another case is still a word. -/
theorem isRun_of_sameFolded {k : List Char} (hk : IsRun isWord k) (hx : sameFolded x k = true) :
    IsRun isWord x := by
  rw [sameFolded_eq_true_iff] at hx
  refine ⟨?_, ?_⟩
  · rintro rfl
    exact hk.ne_nil (List.map_eq_nil_iff.1 hx.symm)
  · intro c hc
    obtain ⟨d, hd, hfold⟩ := List.mem_map.1 (hx ▸ List.mem_map_of_mem hc)
    rw [← isWord_foldCase, ← hfold, isWord_foldCase]
    exact hk.all d hd

theorem isRun_of_isChoice {caseless : Bool} {choices : List (List Char)}
    (hchoices : ∀ k ∈ choices, IsRun isWord k) (hx : isChoice caseless choices x = true) :
    IsRun isWord x := by
  obtain ⟨k, hk, hsame⟩ := List.any_eq_true.1 hx
  cases caseless with
  | false =>
    obtain rfl : x = k := by simpa using hsame
    exact hchoices x hk
  | true => exact isRun_of_sameFolded (hchoices k hk) (by simpa using hsame)

/-- **A pattern of words** matches just the accepted texts between two word boundaries. -/
theorem wordHit?_eq_some_iff_delimited {accepts : List Char → Bool}
    (hruns : ∀ x, accepts x = true → IsRun isWord x) :
    wordHit? accepts (behind none a) s = some h ↔
      ∃ b, s = h.text ++ b ∧ accepts h.text = true ∧ Delimited a h.text b ∧ h.groups = [] := by
  rw [wordHit?_eq_some_iff, behind_none_eq_getLast?, insideWord_eq_false_iff]
  constructor
  · rintro ⟨hin, -, haccepts, rfl⟩
    refine ⟨s.dropWhile isWord, (keyword_append_dropWhile rfl).symm, haccepts, ?_, rfl⟩
    rw [delimited_iff_of_isRun (hruns _ haccepts)]
    exact ⟨hin, head?_dropWhile_eq_false isWord s⟩
  · rintro ⟨b, rfl, haccepts, hdelimited, hgroups⟩
    have hrun := hruns _ haccepts
    obtain ⟨ha, hb⟩ := (delimited_iff_of_isRun hrun).1 hdelimited
    -- behind the text the word does not go on
    rw [leadingWord_run hrun (leadingWord_eq_nil_iff.2 hb)]
    exact ⟨ha, hrun.ne_nil, haccepts, by rw [← hgroups]⟩

/-! ## Texts that go on -/

/-- A separator with the blanks behind it is a separator. -/
theorem Separator.exists_append (sep : Separator) (g : Blanks) :
    ∃ sep' : Separator, sep'.text = sep.text ++ g.1 := by
  cases sep with
  | comma front back =>
    refine ⟨.comma front ⟨back.1 ++ g.1, ?_⟩, by simp [Separator.text]⟩
    exact List.forall_mem_append.2 ⟨back.2, g.2⟩
  | word front back =>
    refine ⟨.word front ⟨back.1 ++ g.1, ?_, ?_⟩, by simp [Separator.text]⟩
    · simp [back.2.ne_nil]
    · exact List.forall_mem_append.2 ⟨back.2.all, g.2⟩

/-- An identifier with further letters, digits and underscores is an identifier. -/
theorem isIdentifier_append (hx : isIdentifier x = true) (hb : ∀ c ∈ b, isIdentRest c = true) :
    isIdentifier (x ++ b) = true := by
  cases x with
  | nil => cases hx
  | cons c x =>
    rw [isIdentifier, Bool.and_eq_true, List.all_eq_true] at hx
    rw [List.cons_append, isIdentifier, Bool.and_eq_true, List.all_eq_true]
    exact ⟨hx.1, List.forall_mem_append.2 ⟨hx.2, hb⟩⟩

/-! ## Forms and matches -/

/-- **What is matched has the form** that the pattern asks for. -/
theorem fits_of_hit? (hp : p.Worded) (hh : p.hit? (behind none a) s = some h) :
    ∃ b, s = h.text ++ b ∧ p.Fits a h b := by
  have hposedge : IsRun isWord "posedge".toList := by decide
  cases p with
  | word caseless choices =>
    exact (wordHit?_eq_some_iff_delimited fun x => isRun_of_isChoice hp).1 hh
  | identifier => exact (wordHit?_eq_some_iff_delimited fun x => isRun_of_isIdentifier).1 hh
  | header =>
    obtain ⟨gap, list, b, rfl, hgap, hlist, rfl⟩ := hit?_header_eq_some_iff.1 hh
    exact ⟨b, rfl, gap, list, rfl, hgap, fun c hc => inHeader_iff.1 (hlist c hc)⟩
  | alwaysHeader =>
    obtain ⟨gap, gap', list, b, rfl, hgap, hgap', hlist, rfl⟩ := hit?_alwaysHeader_eq_some_iff.1 hh
    refine ⟨b, by simp, gap, gap', list, rfl, hgap, hgap', ?_⟩
    exact fun c hc => inLineHeader_iff.1 (hlist c hc)
  | separator =>
    obtain ⟨sep, b, rfl, -, rfl⟩ := separatorHit?_eq_some_iff.1 hh
    exact ⟨b, rfl, sep, rfl⟩
  | blocking =>
    obtain ⟨b, rfl, hbefore, hbehind, rfl⟩ := blockingHit?_eq_some_iff.1 hh
    rw [behind_none_eq_getLast?, any_joinsEquals_eq_false_iff] at hbefore
    exact ⟨b, rfl, rfl, hbefore, hbehind⟩
  | nonBlocking =>
    obtain ⟨b, rfl, rfl⟩ := nonBlockingHit?_eq_some_iff.1 hh
    exact ⟨b, rfl, rfl⟩
  | posedge =>
    obtain ⟨gap, name, b, rfl, hin, hgap, hname, -, rfl⟩ := posedgeHit?_eq_some_iff.1 hh
    rw [behind_none_eq_getLast?, insideWord_eq_false_iff] at hin
    refine ⟨b, by simp, gap, name, by simp, ?_, hgap, hname⟩
    simpa using (isBoundary_run_append hposedge).2 hin
  | assignment =>
    obtain ⟨name, gap, mark, b, rfl, hin, hname, hgap, hmark, hbehind, rfl⟩ :=
      assignmentHit?_eq_some_iff.1 hh
    rw [behind_none_eq_getLast?, insideWord_eq_false_iff] at hin
    refine ⟨b, by simp, name, gap, mark, by simp, ?_, hname, hgap, hmark, hbehind⟩
    simpa using (isBoundary_run_append (isRun_of_isIdentifier hname)).2 hin

/-- **Where a text has the form something is matched**, and nothing shorter than that text. -/
theorem exists_hit?_of_fits (hp : p.Worded) (hfits : p.Fits a h b) :
    ∃ h', p.hit? (behind none a) (h.text ++ b) = some h' ∧ h.text <+: h'.text := by
  have hposedge : IsRun isWord "posedge".toList := by decide
  cases p with
  | word caseless choices =>
    refine ⟨h, ?_, List.prefix_rfl⟩
    exact (wordHit?_eq_some_iff_delimited fun x => isRun_of_isChoice hp).2 ⟨b, rfl, hfits⟩
  | identifier =>
    refine ⟨h, ?_, List.prefix_rfl⟩
    exact (wordHit?_eq_some_iff_delimited fun x => isRun_of_isIdentifier).2 ⟨b, rfl, hfits⟩
  | header =>
    obtain ⟨gap, list, rfl, hgap, hlist⟩ := hfits
    refine ⟨_, hit?_header_eq_some_iff.2 ⟨gap, list, b, rfl, hgap, ?_, rfl⟩, List.prefix_rfl⟩
    exact fun c hc => inHeader_iff.2 (hlist c hc)
  | alwaysHeader =>
    obtain ⟨gap, gap', list, rfl, hgap, hgap', hlist⟩ := hfits
    refine ⟨_, hit?_alwaysHeader_eq_some_iff.2
      ⟨gap, gap', list, b, by simp, hgap, hgap', ?_, rfl⟩, List.prefix_rfl⟩
    exact fun c hc => inLineHeader_iff.2 (hlist c hc)
  | separator =>
    -- all blanks behind the separator are matched with it
    obtain ⟨sep, rfl⟩ := hfits
    obtain ⟨sep', hsep'⟩ :=
      sep.exists_append ⟨b.takeWhile isBlank, fun c hc => List.mem_takeWhile_imp hc⟩
    refine ⟨_, separatorHit?_eq_some_iff.2
      ⟨sep', b.dropWhile isBlank, ?_, head?_dropWhile_eq_false isBlank b, rfl⟩, ?_⟩
    · rw [hsep', List.append_assoc, List.takeWhile_append_dropWhile]
    · rw [hsep']
      exact List.prefix_append ..
  | blocking =>
    obtain ⟨rfl, hbefore, hbehind⟩ := hfits
    refine ⟨_, blockingHit?_eq_some_iff.2 ⟨b, rfl, ?_, hbehind, rfl⟩, List.prefix_rfl⟩
    rwa [behind_none_eq_getLast?, any_joinsEquals_eq_false_iff]
  | nonBlocking =>
    obtain rfl := hfits
    exact ⟨_, nonBlockingHit?_eq_some_iff.2 ⟨b, rfl, rfl⟩, List.prefix_rfl⟩
  | posedge =>
    -- the name is matched with all that may continue it
    obtain ⟨gap, name, rfl, hboundary, hgap, hname⟩ := hfits
    rw [List.append_assoc, isBoundary_run_append hposedge] at hboundary
    let rest := b.takeWhile isIdentRest
    have hlonger : isIdentifier (name ++ rest) = true :=
      isIdentifier_append hname fun c hc => List.mem_takeWhile_imp hc
    refine ⟨⟨"posedge".toList ++ gap ++ (name ++ rest), [name ++ rest]⟩, ?_, rest, by simp⟩
    rw [Pattern.hit?, posedgeHit?_eq_some_iff]
    refine ⟨gap, name ++ rest, b.dropWhile isIdentRest, ?_, ?_, hgap, hlonger,
      head?_dropWhile_eq_false isIdentRest b, rfl⟩
    · simp [rest, List.takeWhile_append_dropWhile]
    · rwa [behind_none_eq_getLast?, insideWord_eq_false_iff]
  | assignment =>
    obtain ⟨name, gap, mark, rfl, hboundary, hname, hgap, hmark, hbehind⟩ := hfits
    rw [List.append_assoc, isBoundary_run_append (isRun_of_isIdentifier hname)] at hboundary
    refine ⟨_, assignmentHit?_eq_some_iff.2
      ⟨name, gap, mark, b, by simp, ?_, hname, hgap, hmark, hbehind, rfl⟩, by simp⟩
    rwa [behind_none_eq_getLast?, insideWord_eq_false_iff]

end HdlReview.Scan
