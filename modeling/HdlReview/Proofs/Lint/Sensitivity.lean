import HdlReview.Lint.Rule
import HdlReview.Proofs.Scan.Headers
import HdlReview.Proofs.Scan.Identifiers
import HdlReview.Proofs.Scan.WrittenLists
import HdlReview.Proofs.Text.Pieces

/-!
# Incomplete sensitivity lists

The rule on sensitivity lists looks at the first header behind `always` whose list is on one line.
Unless that list has a clock edge, it reports the signals of the whole source that the list does not
name. The message shows them between commas, and since no name has a comma in it, they can be read
back from the message.

Two consequences may surprise. In a list that uses the word `or`, the word itself is a signal of the
source that the list does not name, so the rule always reports it. And a list that is a single star
names nothing, so the rule reports every signal of the source.

## Main definitions

* `MissingAt s list x i`: a signal at a place that the list does not name
* `shownNames message`: the names that a message shows

## Main results

* `inOrder_missingSignals`, `shownNames_missingFinding`: the names that are missing and shown
* `sensitivity_exact`: when the rule reports, and which names
-/

namespace HdlReview.Scan

open HdlReview.Text

variable {i : Nat} {s list x : List Char}

/-! ## Signals -/

/-- **A signal at a place**: an identifier that is not a structural keyword. -/
def SignalAt (s x : List Char) (i : Nat) : Prop :=
  IdentifierAt s x i ∧ x ∉ structuralKeywords

/-- **A signal at a place that a list does not name**. -/
def MissingAt (s list x : List Char) (i : Nat) : Prop :=
  SignalAt s x i ∧ x ∉ listedSignals list

theorem or_signalAt {a g g' b : List Char} (hg : IsRun isBlank g) (hg' : IsRun isBlank g') :
    ∃ i, SignalAt (a ++ (g ++ ("or".toList ++ (g' ++ b)))) "or".toList i := by
  refine ⟨(a ++ g).length, ⟨rfl, g' ++ b, a ++ g, by simp, rfl, by decide, ?_, ?_⟩, by decide⟩
  · intro c hc
    rw [List.getLast?_append_of_ne_nil a hg.ne_nil] at hc
    exact isWord_eq_false_of_isBlank (hg.all c (List.mem_of_getLast? hc))
  · intro c hc
    rw [List.head?_append_of_ne_nil g' hg'.ne_nil] at hc
    exact isWord_eq_false_of_isBlank (hg'.all c (List.mem_of_mem_head? hc))

/-- The separator `or` stands somewhere in a list that uses it. -/
theorem exists_or_in_writeNames {first : ListName} {rest : List (Separator × ListName)}
    (hor : ∃ y ∈ rest, y.1.isOr = true) :
    ∃ a g g' b, IsRun isBlank g ∧ IsRun isBlank g' ∧
      writeNames first rest = a ++ (g ++ ("or".toList ++ (g' ++ b))) := by
  induction rest generalizing first with
  | nil => simp at hor
  | cons y rest ih =>
    obtain ⟨sep, name⟩ := y
    cases sep with
    | comma g g' =>
      have hrest : ∃ y ∈ rest, y.1.isOr = true := by simpa [Separator.isOr] using hor
      obtain ⟨a, u, u', b, hu, hu', he⟩ := @ih name hrest
      refine ⟨first.text ++ (g.1 ++ ',' :: (g'.1 ++ a)), u, u', b, hu, hu', ?_⟩
      simp [writeNames, Separator.text, he]
    | word g g' =>
      refine ⟨first.text, g.1, g'.1, writeNames name rest, g.2, g'.2, ?_⟩
      simp [writeNames, Separator.text]

/-- **The word `or` is missing** from a written list that uses it: it is a signal of every source
around the list, and it is no name in the list. -/
theorem AlwaysAt.or_missingAt {w : WrittenList} (hat : AlwaysAt s i w.text)
    (hor : ∃ y ∈ w.rest, y.1.isOr = true) : ∃ j, MissingAt s w.text "or".toList j := by
  -- the list stands in the source, and in the list the word stands between blanks
  obtain ⟨pre, gap, gap', post, rfl, -⟩ := hat
  obtain ⟨a, g, g', b, hg, hg', he⟩ := @exists_or_in_writeNames w.first w.rest hor
  obtain ⟨j, hj⟩ := or_signalAt
    (a := pre ++ ("always".toList ++ (gap ++ '@' :: (gap' ++ '(' :: (w.leading.1 ++ a)))))
    (b := b ++ (w.trailing.1 ++ ')' :: post)) hg hg'
  refine ⟨j, ?_, or_not_mem_listedSignals w⟩
  simpa [WrittenList.text, he] using hj

end HdlReview.Scan

namespace HdlReview.Lint

open HdlReview.Text HdlReview.Scan

variable {i line : Nat} {s list : List Char} {names : List (List Char)}

/-- **The signals that are missing**, each once, in order of first appearance in the source. -/
theorem inOrder_missingSignals (s list : List Char) :
    InOrder (MissingAt s list) (missingSignals s list) := by
  refine ((inOrder_orderedSignals s).filter _).congr fun x i => ?_
  rw [Bool.not_eq_true', ← Bool.not_eq_true, List.contains_iff_mem]
  rfl

/-! ## Messages -/

/-- **The names that a message shows**, between commas behind its colon. -/
def shownNames (message : String) : Option (List (List Char)) :=
  (behindFirst? "Missing signals: ".toList message.toList).map (splitText ", ".toList)

theorem behindFirst?_missingFinding (line : Nat) (names : List (List Char)) :
    behindFirst? "Missing signals: ".toList (missingFinding line names).message.toList =
      some (", ".toList.intercalate names) := by
  have hnames : (names.map String.ofList).map String.toList = names := by
    simp [Function.comp_def]
  rw [missingFinding, String.toList_append, String.toList_intercalate, hnames]
  -- what stands before the mark is fixed, so the search in it can be run
  rfl

/-- **The names can be read from the message**, because no identifier has a comma in it. -/
theorem shownNames_missingFinding (hnames : ∀ x ∈ names, isIdentifier x = true)
    (hne : names ≠ []) : shownNames (missingFinding line names).message = some names := by
  rw [shownNames, behindFirst?_missingFinding, Option.map_some]
  refine congrArg some (splitText_intercalate (fun x hx hcomma => ?_) hne)
  have hrest := isIdentRest_of_isIdentifier (hnames x hx) ',' hcomma
  exact absurd hrest (by decide)

/-! ## Issues -/

/-- **The rule reports the names that stand at places**: nothing if there are none, and otherwise
one issue whose message shows them, each once, in order of first appearance. -/
def ReportsNames (s : List Char) (At : List Char → Nat → Prop) : Prop :=
  ((∀ x i, ¬ At x i) → Rule.incompleteSensitivity.check s = []) ∧
  ∀ x i, At x i → ∃ line message names,
    Rule.incompleteSensitivity.check s =
      [Rule.incompleteSensitivity.issue ⟨some line, message⟩] ∧
    shownNames message = some names ∧ InOrder At names

theorem check_of_hasEdge (hfirst : FirstAlways s i list) (hedge : HasEdge list) :
    Rule.incompleteSensitivity.check s = [] := by
  obtain ⟨m, hm, rfl, -⟩ := hfirst.search
  simp only [Rule.check, Rule.findings, sensitivityFindings, hm, contains_edge_iff.2 hedge,
    if_true, List.map_nil]

/-- **Without a clock edge** the rule reports the signals that the first list does not name. -/
theorem reportsNames_missingAt (hfirst : FirstAlways s i list) (hedge : ¬ HasEdge list) :
    ReportsNames s (MissingAt s list) := by
  -- the header that is found is the first one, so its list is the given one
  obtain ⟨m, hm, rfl, -⟩ := hfirst.search
  have horder := inOrder_missingSignals s m.group
  have hfindings : sensitivityFindings s =
      if (missingSignals s m.group).isEmpty then []
      else [missingFinding (lineOf s m.start) (missingSignals s m.group)] := by
    rw [← contains_edge_iff] at hedge
    simp only [sensitivityFindings, hm, if_neg hedge]
  constructor
  · intro hnone
    have hnil : missingSignals s m.group = [] := horder.eq_nil_iff.2 hnone
    rw [Rule.check, Rule.findings, hfindings, hnil]
    rfl
  · intro x j hx
    have hne : missingSignals s m.group ≠ [] := fun hnil => horder.eq_nil_iff.1 hnil x j hx
    have hident : ∀ y ∈ missingSignals s m.group, isIdentifier y = true := by
      intro y hy
      obtain ⟨k, hk⟩ := (horder.mem_iff y).1 hy
      exact hk.1.1.1
    refine ⟨lineOf s m.start,
      (missingFinding (lineOf s m.start) (missingSignals s m.group)).message,
      missingSignals s m.group, ?_, shownNames_missingFinding hident hne, horder⟩
    rw [Rule.check, Rule.findings, hfindings, if_neg (by simpa using hne)]
    rfl

/-- A list that is a single star has no clock edge and names no identifier. -/
theorem missingAt_star : MissingAt s ['*'] = SignalAt s := by
  funext x i
  refine propext ⟨And.left, fun hx => ⟨hx, fun hstar => ?_⟩⟩
  obtain rfl : x = ['*'] := by simpa using (show x ∈ [['*']] from hstar)
  exact absurd hx.1.1 (by decide)

theorem not_hasEdge_star : ¬ HasEdge ['*'] := by
  rw [← contains_edge_iff]
  decide

/-- **The rule on sensitivity lists is exact.** Without a list behind `always` it reports nothing,
and nothing if the first such list has a clock edge. Otherwise it reports the signals of the source
that the list does not name. In particular it reports the word `or` if the list is written with it,
and all signals of the source if the list is a star. -/
theorem sensitivity_exact (s : List Char) :
    ((∀ i list, ¬ AlwaysAt s i list) → Rule.incompleteSensitivity.check s = []) ∧
    ∀ i list, FirstAlways s i list →
      (HasEdge list → Rule.incompleteSensitivity.check s = []) ∧
      (¬ HasEdge list → ReportsNames s (MissingAt s list)) ∧
      (∀ w : WrittenList, list = w.text → ¬ HasEdge list → (∃ y ∈ w.rest, y.1.isOr = true) →
        ∃ line message names,
          Rule.incompleteSensitivity.check s =
            [Rule.incompleteSensitivity.issue ⟨some line, message⟩] ∧
          shownNames message = some names ∧ "or".toList ∈ names) ∧
      (list = ['*'] → ReportsNames s (SignalAt s)) := by
  constructor
  · intro hnone
    rw [← search_alwaysHeader_eq_none_iff] at hnone
    simp only [Rule.check, Rule.findings, sensitivityFindings, hnone, List.map_nil]
  · intro i list hfirst
    refine ⟨check_of_hasEdge hfirst, reportsNames_missingAt hfirst, ?_, ?_⟩
    · rintro w rfl hedge hor
      obtain ⟨j, hj⟩ := hfirst.1.or_missingAt hor
      obtain ⟨line, message, names, hcheck, hshown, horder⟩ :=
        (reportsNames_missingAt hfirst hedge).2 _ j hj
      exact ⟨line, message, names, hcheck, hshown, (horder.mem_iff _).2 ⟨j, hj⟩⟩
    · rintro rfl
      rw [← missingAt_star]
      exact reportsNames_missingAt hfirst not_hasEdge_star

/-- The list `a or b` names both signals of the source, but not the word between them. -/
theorem sensitivity_exact_or :
    FirstAlways "always @(a or b) a = b;".toList 0 "a or b".toList ∧
      ∃ line message names,
        Rule.incompleteSensitivity.check "always @(a or b) a = b;".toList =
          [Rule.incompleteSensitivity.issue ⟨some line, message⟩] ∧
        shownNames message = some names ∧ "or".toList ∈ names := by
  have hspace : IsRun isBlank [' '] := by decide
  have hfirst : FirstAlways "always @(a or b) a = b;".toList 0 "a or b".toList := by
    refine ⟨⟨[], [' '], [], " a = b;".toList, rfl, rfl, hspace.all, by simp, ?_⟩, ?_⟩
    · simp
    · exact fun j _ _ => Nat.zero_le j
  have hedge : ¬ HasEdge "a or b".toList := by
    rw [← contains_edge_iff]
    decide
  have ha : ∀ c ∈ ['a'], isBlank c = false ∧ c ≠ ',' := List.forall_mem_singleton.2 (by decide)
  have hb : ∀ c ∈ ['b'], isBlank c = false ∧ c ≠ ',' := List.forall_mem_singleton.2 (by decide)
  refine ⟨hfirst, ((sensitivity_exact _).2 0 _ hfirst).2.2.1 ?_ ?_ hedge ?_⟩
  · exact ⟨⟨[], by simp⟩, ⟨['a'], by simp, ha, by decide⟩,
      [(.word ⟨[' '], hspace⟩ ⟨[' '], hspace⟩, ⟨['b'], by simp, hb, by decide⟩)], ⟨[], by simp⟩⟩
  · rfl
  · exact ⟨_, List.mem_singleton_self _, rfl⟩

end HdlReview.Lint
