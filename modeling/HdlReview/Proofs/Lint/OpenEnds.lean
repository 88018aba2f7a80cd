import HdlReview.Proofs.Lint.Clocking
import HdlReview.Proofs.Lint.Review
import HdlReview.Proofs.Scan.Tokens
import Mathlib.Data.List.DropRight

/-!
# Patterns that are open at one end

Most patterns ask for word boundaries at both ends of a word. Two of them do not, and so they may
take a part of a word for the whole.

The name of a clock has no boundary behind it. What stands there is a whole word of the source that
starts like an identifier, and the name is its longest beginning of ASCII letters, digits and
underscores. If a word character beyond ASCII follows, the name is cut there; it need not be an
identifier of the source, and two headers with different words may have the same clock. For words
that are ASCII throughout nothing is cut.

The letters `always` of a header have no boundary before them, so they are the end of some whole
word. They are the word itself just if no word character stands before the header. In a source of
which no longer word ends in `always`, the rule on sensitivity lists inspects real blocks only.

## Main definitions

* `ClockWordAt list i w`, `ClockWord list w`: the whole word behind `posedge`, and the first one
* `ClocksHeader s w`: the word `w` clocks a header of the source

## Main results

* `clockAt_iff_exists_clockWordAt`, `mem_clockSignals_iff_exists_clocksHeader`: the name of a clock
  is the beginning of a word
* `AlwaysAt.exists_wordAt`: the letters `always` are the end of a word
* `clock_names_exact`, `clock_name_cut`: clocks and identifiers
* `inspected_header_exact`, `inspected_header_not_always`: the header that is inspected
-/

namespace HdlReview.Scan

open HdlReview.Text

variable {i : Nat} {a s list name w : List Char}

/-! ## Words behind `posedge` -/

/-- **The word behind `posedge` at a place** of a list: a whole word that starts with an ASCII
letter or an underscore, with blanks before it and before these the word `posedge`. -/
def ClockWordAt (list : List Char) (i : Nat) (w : List Char) : Prop :=
  ∃ a gap rest, list = a ++ ("posedge".toList ++ (gap ++ (w ++ rest))) ∧ a.length = i ∧
    (∀ c, a.getLast? = some c → isWord c = false) ∧ IsRun isBlank gap ∧ IsRun isWord w ∧
    (∀ c, w.head? = some c → isIdentStart c = true) ∧ ∀ c, rest.head? = some c → isWord c = false

/-- **The word that clocks a list**: the one at the least place. -/
def ClockWord (list w : List Char) : Prop :=
  ∃ i, ClockWordAt list i w ∧ ∀ j other, ClockWordAt list j other → i ≤ j

/-- **A word that clocks a header** of the source. -/
def ClocksHeader (s w : List Char) : Prop :=
  ∃ list, ListOf s list ∧ ClockWord list w

theorem isIdentRest_eq_false_of_isWord_eq_false {c : Char} (hc : isWord c = false) :
    isIdentRest c = false := by
  rw [← Bool.not_eq_true]
  intro hrest
  rw [isWord_of_isIdentRest hrest] at hc
  cases hc

/-- The beginning of a word that starts like an identifier is an identifier. -/
theorem isIdentifier_takeWhile (hw : IsRun isWord w)
    (hstart : ∀ c, w.head? = some c → isIdentStart c = true) :
    isIdentifier (w.takeWhile isIdentRest) = true := by
  obtain ⟨c, w, rfl⟩ := List.exists_cons_of_ne_nil hw.ne_nil
  have hc := hstart c rfl
  rw [List.takeWhile_cons_of_pos (isIdentRest_of_isIdentStart hc), isIdentifier, hc, Bool.true_and,
    List.all_eq_true]
  exact fun d hd => List.mem_takeWhile_imp hd

theorem isIdentStart_head_of_isIdentifier (hname : isIdentifier name = true) (t : List Char) :
    ∀ c, (name ++ t).head? = some c → isIdentStart c = true := by
  cases name with
  | nil => cases hname
  | cons d name =>
    rintro c ⟨⟩
    exact (Bool.and_eq_true_iff.1 hname).1

/-- **The name of a clock** is the beginning of the word behind `posedge`. -/
theorem clockAt_iff_exists_clockWordAt :
    ClockAt list i name ↔ ∃ w, ClockWordAt list i w ∧ name = w.takeWhile isIdentRest := by
  constructor
  · rintro ⟨a, gap, rest, rfl, hi, ha, hgap, hname, hrest⟩
    -- the word is the name and what goes on behind it
    have hrun := isRun_of_isIdentifier hname
    refine ⟨name ++ rest.takeWhile isWord, ⟨a, gap, rest.dropWhile isWord, ?_, hi, ha, hgap,
      ⟨by simp [hrun.ne_nil], ?_⟩, isIdentStart_head_of_isIdentifier hname _,
      head?_dropWhile_eq_false isWord rest⟩, ?_⟩
    · rw [List.append_assoc, List.takeWhile_append_dropWhile]
    · exact List.forall_mem_append.2 ⟨hrun.all, fun c hc => List.mem_takeWhile_imp hc⟩
    · refine (span_of_stop (isIdentRest_of_isIdentifier hname) ?_).1.symm
      intro c hc
      rw [List.head?_takeWhile] at hc
      exact hrest c (Option.eq_some_of_filter_eq_some hc)
  · rintro ⟨w, ⟨a, gap, rest, rfl, hi, ha, hgap, hw, hstart, hrest⟩, rfl⟩
    refine ⟨a, gap, w.dropWhile isIdentRest ++ rest, ?_, hi, ha, hgap,
      isIdentifier_takeWhile hw hstart, ?_⟩
    · rw [← List.append_assoc (w.takeWhile isIdentRest), List.takeWhile_append_dropWhile]
    · intro c hc
      rw [List.head?_append, Option.or_eq_some_iff] at hc
      rcases hc with hc | ⟨-, hc⟩
      · exact head?_dropWhile_eq_false isIdentRest w c hc
      · exact isIdentRest_eq_false_of_isWord_eq_false (hrest c hc)

theorem clock_iff_exists_clockWord :
    Clock list name ↔ ∃ w, ClockWord list w ∧ name = w.takeWhile isIdentRest := by
  simp only [Clock, ClockWord, clockAt_iff_exists_clockWordAt]
  constructor
  · rintro ⟨i, ⟨w, hat, rfl⟩, hleast⟩
    exact ⟨w, ⟨i, hat, fun j other hother => hleast j _ ⟨other, hother, rfl⟩⟩, rfl⟩
  · rintro ⟨w, ⟨i, hat, hleast⟩, rfl⟩
    refine ⟨i, ⟨w, hat, rfl⟩, ?_⟩
    rintro j _ ⟨other, hother, rfl⟩
    exact hleast j other hother

/-- **The clocks that are found** are the beginnings of the words that clock the headers. -/
theorem mem_clockSignals_iff_exists_clocksHeader :
    name ∈ clockSignals s ↔ ∃ w, ClocksHeader s w ∧ name = w.takeWhile isIdentRest := by
  simp only [mem_clockSignals_iff, clock_iff_exists_clockWord, ClocksHeader]
  constructor
  · rintro ⟨list, hlist, w, hw, rfl⟩
    exact ⟨w, ⟨list, hlist, hw⟩, rfl⟩
  · rintro ⟨w, ⟨list, hlist, hw⟩, rfl⟩
    exact ⟨list, hlist, w, hw, rfl⟩

theorem ClockWordAt.wholeWord (hat : ClockWordAt list i w) : WholeWord list w := by
  obtain ⟨a, gap, rest, rfl, -, -, hgap, hw, -, hrest⟩ := hat
  refine ⟨a ++ ("posedge".toList ++ gap), rest, by simp, hw, ?_, hrest⟩
  intro c hc
  rw [← List.append_assoc, List.getLast?_append_of_ne_nil _ hgap.ne_nil] at hc
  exact isWord_eq_false_of_isBlank (hgap.all c (List.mem_of_getLast? hc))

theorem ListOf.wholeWord (hlist : ListOf s list) (hword : WholeWord list w) : WholeWord s w := by
  obtain ⟨pre, gap, post, rfl, -⟩ := hlist
  -- the parentheses of the header are in no word
  have hopen : isWord '(' = false := by decide
  have hclose : isWord ')' = false := by decide
  simpa using hword.between hopen hclose (pre ++ '@' :: gap) post

/-- **A word that clocks a header** is a whole word of the source. -/
theorem ClocksHeader.wholeWord (hclocks : ClocksHeader s w) : WholeWord s w := by
  obtain ⟨list, hlist, i, hat, -⟩ := hclocks
  exact hlist.wholeWord hat.wholeWord

theorem ClocksHeader.isIdentStart_head (hclocks : ClocksHeader s w) :
    ∀ c, w.head? = some c → isIdentStart c = true := by
  obtain ⟨list, -, i, ⟨a, gap, rest, -, -, -, -, -, hstart, -⟩, -⟩ := hclocks
  exact hstart

/-- In a word, just the ASCII characters may continue an identifier. -/
theorem isIdentRest_iff_of_isWord {c : Char} (hc : isWord c = true) :
    isIdentRest c = true ↔ c.toNat < 0x80 :=
  ⟨toNat_lt_of_isIdentRest, fun hlt => isIdentRest_of_isWord hlt hc⟩

/-- A word of ASCII characters is not cut. -/
theorem takeWhile_isIdentRest_of_ascii (hw : IsRun isWord w) (hascii : ∀ c ∈ w, c.toNat < 0x80) :
    w.takeWhile isIdentRest = w := by
  rw [List.takeWhile_eq_self_iff]
  intro c hc
  exact (isIdentRest_iff_of_isWord (hw.all c hc)).2 (hascii c hc)

/-- **A word that clocks a header** is an identifier just if it is ASCII. -/
theorem ClocksHeader.mem_identifiers_iff (hclocks : ClocksHeader s w) :
    w ∈ identifiers s ↔ ∀ c ∈ w, c.toNat < 0x80 := by
  have hw := hclocks.wholeWord.isRun
  rw [Scan.mem_identifiers_iff, and_iff_left hclocks.wholeWord]
  constructor
  · intro hident c hc
    exact toNat_lt_of_isIdentRest (isIdentRest_of_isIdentifier hident c hc)
  · intro hascii
    rw [← takeWhile_isIdentRest_of_ascii hw hascii]
    exact isIdentifier_takeWhile hw hclocks.isIdentStart_head

/-- A clock that is no identifier of the source was cut before a character beyond ASCII. -/
theorem exists_clocksHeader_of_not_mem_identifiers (hname : name ∈ clockSignals s)
    (hnot : name ∉ identifiers s) :
    ∃ c rest, ClocksHeader s (name ++ c :: rest) ∧ isWord c = true ∧ 0x80 ≤ c.toNat := by
  obtain ⟨w, hclocks, rfl⟩ := mem_clockSignals_iff_exists_clocksHeader.1 hname
  have hw := hclocks.wholeWord.isRun
  cases hcut : w.dropWhile isIdentRest with
  | nil =>
    -- the whole word is the name, so it is an identifier
    have hall := List.dropWhile_eq_nil_iff.1 hcut
    rw [List.takeWhile_eq_self_iff.2 hall, hclocks.mem_identifiers_iff] at hnot
    exact absurd (fun c hc => toNat_lt_of_isIdentRest (hall c hc)) hnot
  | cons c rest =>
    have hsplit : w.takeWhile isIdentRest ++ c :: rest = w := by
      rw [← hcut, List.takeWhile_append_dropWhile]
    have hc : isWord c = true := hw.all c (by rw [← hsplit]; simp)
    have hrest : isIdentRest c = false :=
      head?_dropWhile_eq_false isIdentRest w c (by rw [hcut]; rfl)
    refine ⟨c, rest, by rwa [hsplit], hc, ?_⟩
    rw [← Nat.not_lt, ← isIdentRest_iff_of_isWord hc, hrest]
    simp

/-! ## Words that end in `always` -/

/-- The word characters at the end of a text are a word that nothing precedes. -/
theorem getLast?_rdropWhile_isWord (a : List Char) :
    ∀ c, (a.rdropWhile isWord).getLast? = some c → isWord c = false := by
  intro c hc
  obtain ⟨hne, rfl⟩ := List.mem_getLast?_eq_getLast hc
  exact eq_false_of_ne_true (List.rdropWhile_last_not isWord a hne)

theorem rtakeWhile_isWord_eq_nil_iff :
    a.rtakeWhile isWord = [] ↔ ∀ c, a.getLast? = some c → isWord c = false := by
  rw [List.rtakeWhile_eq_nil_iff]
  constructor
  · intro hlast c hc
    obtain ⟨hne, rfl⟩ := List.mem_getLast?_eq_getLast hc
    exact eq_false_of_ne_true (hlast hne)
  · intro hlast hne
    rw [hlast _ (List.getLast?_eq_some_getLast hne)]
    exact Bool.false_ne_true

/-- **The letters `always` of a header** are the end of a whole word. -/
theorem AlwaysAt.exists_wordAt (hat : AlwaysAt s i list) :
    ∃ front j rest, i = j + front.length ∧ WordAt s (front ++ "always".toList) j rest ∧
      (front = [] ↔ ∀ c, (s.take i).getLast? = some c → isWord c = false) := by
  obtain ⟨a, gap, gap', b, rfl, rfl, hgap, -⟩ := hat
  have halways : IsRun isWord "always".toList := by decide
  have hsplit : a.rdropWhile isWord ++ a.rtakeWhile isWord = a :=
    List.rdropWhile_append_rtakeWhile ..
  refine ⟨a.rtakeWhile isWord, (a.rdropWhile isWord).length,
    gap ++ '@' :: (gap' ++ '(' :: (list ++ ')' :: b)), ?_,
    ⟨a.rdropWhile isWord, ?_, rfl, ⟨by simp, ?_⟩, getLast?_rdropWhile_isWord a, ?_⟩, ?_⟩
  · rw [← List.length_append, hsplit]
  · rw [List.append_assoc, ← List.append_assoc (a.rdropWhile isWord), hsplit]
  · exact List.forall_mem_append.2 ⟨fun c hc => List.mem_rtakeWhile_imp hc, halways.all⟩
  · -- behind the letters there are blanks, or the header starts
    intro c hc
    cases gap with
    | nil =>
      obtain rfl := Option.some.inj hc
      decide
    | cons d gap =>
      obtain rfl := Option.some.inj hc
      exact isWord_eq_false_of_isBlank (hgap d (List.mem_cons_self ..))
  · rw [List.take_left, rtakeWhile_isWord_eq_nil_iff]

end HdlReview.Scan

namespace HdlReview.Lint

open HdlReview.Text HdlReview.Scan

variable {s : List Char}

/-! ## Clocks that are cut -/

/-- The rule on crossings reports just if two words that clock headers begin differently. -/
theorem crossing_check_ne_nil_iff :
    Rule.clockDomainCrossing.check s ≠ [] ↔ ∃ w w', ClocksHeader s w ∧ ClocksHeader s w' ∧
      w.takeWhile isIdentRest ≠ w'.takeWhile isIdentRest := by
  rw [Rule.check_ne_nil_iff]
  change crossingFindings s ≠ [] ↔ _
  rw [crossingFindings, findingIf_ne_nil_iff, decide_eq_true_iff,
    two_le_length_iff_of_nodup (nodup_clockSignals s)]
  simp only [mem_clockSignals_iff_exists_clocksHeader]
  constructor
  · rintro ⟨_, ⟨w, hw, rfl⟩, _, ⟨w', hw', rfl⟩, hne⟩
    exact ⟨w, w', hw, hw', hne⟩
  · rintro ⟨w, w', hw, hw', hne⟩
    exact ⟨_, ⟨w, hw, rfl⟩, _, ⟨w', hw', rfl⟩, hne⟩

/-- **Clocks are the beginnings of words.** The clocks that are found are the longest ASCII
beginnings of the words that clock the headers, and the rule on crossings reports just if two of
these beginnings differ. Each of the words is a whole word of the source, and an identifier just if
it is ASCII; a clock that is no identifier was cut before a word character beyond ASCII. If all
words that clock a header are ASCII, then every clock is an identifier of the source, the clocks are
the words themselves, and headers with different words cross. -/
theorem clock_names_exact (s : List Char) :
    (∀ name, name ∈ clockSignals s ↔ ∃ w, ClocksHeader s w ∧ name = w.takeWhile isIdentRest) ∧
    (∀ w, ClocksHeader s w → WholeWord s w ∧ (w ∈ identifiers s ↔ ∀ c ∈ w, c.toNat < 0x80)) ∧
    (∀ name ∈ clockSignals s, name ∉ identifiers s →
      ∃ c rest, ClocksHeader s (name ++ c :: rest) ∧ isWord c = true ∧ 0x80 ≤ c.toNat) ∧
    (Rule.clockDomainCrossing.check s ≠ [] ↔ ∃ w w', ClocksHeader s w ∧ ClocksHeader s w' ∧
      w.takeWhile isIdentRest ≠ w'.takeWhile isIdentRest) ∧
    ((∀ w, ClocksHeader s w → ∀ c ∈ w, c.toNat < 0x80) →
      (∀ name ∈ clockSignals s, name ∈ identifiers s) ∧
      (∀ w, w ∈ clockSignals s ↔ ClocksHeader s w) ∧
      ∀ w w', ClocksHeader s w → ClocksHeader s w' → w ≠ w' →
        Rule.clockDomainCrossing.check s ≠ []) := by
  refine ⟨fun name => mem_clockSignals_iff_exists_clocksHeader,
    fun w hw => ⟨hw.wholeWord, hw.mem_identifiers_iff⟩,
    fun name hname hnot => exists_clocksHeader_of_not_mem_identifiers hname hnot,
    crossing_check_ne_nil_iff, ?_⟩
  intro hascii
  -- no word is cut, so names and words are the same
  have hself : ∀ w, ClocksHeader s w → w.takeWhile isIdentRest = w := by
    intro w hw
    exact takeWhile_isIdentRest_of_ascii hw.wholeWord.isRun (hascii w hw)
  have hclocks : ∀ w, w ∈ clockSignals s ↔ ClocksHeader s w := by
    intro w
    rw [mem_clockSignals_iff_exists_clocksHeader]
    constructor
    · rintro ⟨w, hw, rfl⟩
      rwa [hself w hw]
    · intro hw
      exact ⟨w, hw, (hself w hw).symm⟩
  refine ⟨?_, hclocks, ?_⟩
  · intro name hname
    have hheader := (hclocks name).1 hname
    exact hheader.mem_identifiers_iff.2 (hascii name hheader)
  · intro w w' hw hw' hne
    apply crossing_check_ne_nil_iff.2
    refine ⟨w, w', hw, hw', ?_⟩
    rwa [hself w hw, hself w' hw']

/-- Two headers with different clocks. -/
def asciiClocks : List Char :=
  "@(posedge clk_a) @(posedge clk_b)".toList

/-- Two headers whose clocks differ in a letter beyond ASCII. -/
def accentedClocks : List Char :=
  "@(posedge clké) @(posedge clkè)".toList

/-- The words of the first source are found as they are, and they cross; in the second one a word is
cut. -/
theorem clock_names_exact_asciiClocks :
    (∀ w, ClocksHeader asciiClocks w → ∀ c ∈ w, c.toNat < 0x80) ∧
    ClocksHeader asciiClocks "clk_a".toList ∧ ClocksHeader asciiClocks "clk_b".toList ∧
    "clk_a".toList ∈ identifiers asciiClocks ∧ Rule.clockDomainCrossing.check asciiClocks ≠ [] ∧
    ∃ c rest, ClocksHeader accentedClocks ("clk".toList ++ c :: rest) ∧ isWord c = true ∧
      0x80 ≤ c.toNat := by
  have hall : asciiClocks.all (fun c => decide (c.toNat < 0x80)) = true := by decide +kernel
  have hfound : clockSignals asciiClocks = ["clk_a".toList, "clk_b".toList] := by decide +kernel
  obtain ⟨-, hwords, -, -, hplain⟩ := clock_names_exact asciiClocks
  obtain ⟨-, -, hcut, -⟩ := clock_names_exact accentedClocks
  -- the words that clock headers are parts of a source that is ASCII
  have hascii : ∀ w, ClocksHeader asciiClocks w → ∀ c ∈ w, c.toNat < 0x80 := by
    intro w hw c hc
    obtain ⟨a, b, hs, -⟩ := (hwords w hw).1
    have hmem : c ∈ asciiClocks := by
      rw [hs]
      simp [hc]
    exact of_decide_eq_true (List.all_eq_true.1 hall c hmem)
  obtain ⟨hident, hclocks, hcross⟩ := hplain hascii
  have ha : "clk_a".toList ∈ clockSignals asciiClocks := by simp [hfound]
  have hb : "clk_b".toList ∈ clockSignals asciiClocks := by simp [hfound]
  exact ⟨hascii, (hclocks _).1 ha, (hclocks _).1 hb, hident _ ha,
    hcross _ _ ((hclocks _).1 ha) ((hclocks _).1 hb) (by decide),
    hcut "clk".toList (by decide +kernel) (by decide +kernel)⟩

/-- The words of the two headers are different, but cut they are one clock, which is no identifier
of the source; so no crossing is reported. -/
theorem clock_name_cut :
    clockSignals accentedClocks = ["clk".toList] ∧ "clk".toList ∉ identifiers accentedClocks ∧
    words accentedClocks = ["posedge", "clké", "posedge", "clkè"].map String.toList ∧
    Rule.clockDomainCrossing.check accentedClocks = [] := by
  decide +kernel

/-! ## The header that is inspected -/

/-- An issue has the line of the first header behind `always`, which starts in some whole word. -/
theorem exists_word_of_mem_check {issue : Issue}
    (hissue : issue ∈ Rule.incompleteSensitivity.check s) :
    ∃ header front i rest,
      search .alwaysHeader s = some header ∧ issue.line = some (lineOf s header.start) ∧
      header.start = i + front.length ∧ WordAt s (front ++ "always".toList) i rest ∧
      (front = [] ↔ ∀ c, (s.take header.start).getLast? = some c → isWord c = false) := by
  obtain ⟨f, hf, rfl⟩ := List.mem_map.1 hissue
  obtain ⟨header, hheader, rfl⟩ := exists_of_mem_sensitivityFindings s hf
  obtain ⟨front, i, rest, hword⟩ := (firstAlways_of_search hheader).1.exists_wordAt
  exact ⟨header, front, i, rest, hheader, rfl, hword⟩

/-- **The header that is inspected** starts with the end of a whole word. An issue of the rule on
sensitivity lists has the line of the first header behind the letters `always`. These are the end of
a whole word, and the word itself just if no word character stands before the header; then `always`
is an identifier of the source. If no other whole word of the source ends in `always`, the header
always starts with the whole word. -/
theorem inspected_header_exact (s : List Char) :
    (∀ issue ∈ Rule.incompleteSensitivity.check s, ∃ header front i rest,
      search .alwaysHeader s = some header ∧ issue.line = some (lineOf s header.start) ∧
      header.start = i + front.length ∧ WordAt s (front ++ "always".toList) i rest ∧
      (front = [] ↔ ∀ c, (s.take header.start).getLast? = some c → isWord c = false) ∧
      (front = [] → "always".toList ∈ identifiers s)) ∧
    ((∀ w, WholeWord s w → "always".toList <:+ w → w = "always".toList) →
      ∀ issue ∈ Rule.incompleteSensitivity.check s, ∃ header rest,
        search .alwaysHeader s = some header ∧ issue.line = some (lineOf s header.start) ∧
        WordAt s "always".toList header.start rest ∧ "always".toList ∈ identifiers s ∧
        ∀ c, (s.take header.start).getLast? = some c → isWord c = false) := by
  have hidentifier : ∀ i rest, WordAt s "always".toList i rest →
      "always".toList ∈ identifiers s := by
    intro i rest hat
    exact mem_identifiers_iff.2 ⟨by decide, wholeWord_iff_exists_wordAt.2 ⟨i, rest, hat⟩⟩
  constructor
  · intro issue hissue
    obtain ⟨header, front, i, rest, hheader, hline, hstart, hat, hfront⟩ :=
      exists_word_of_mem_check hissue
    refine ⟨header, front, i, rest, hheader, hline, hstart, hat, hfront, ?_⟩
    rintro rfl
    exact hidentifier i rest hat
  · intro hlone issue hissue
    obtain ⟨header, front, i, rest, hheader, hline, hstart, hat, hfront⟩ :=
      exists_word_of_mem_check hissue
    -- the word ends in `always`, so nothing stands before these letters
    have hword := hlone _ (wholeWord_iff_exists_wordAt.2 ⟨i, rest, hat⟩) (List.suffix_append ..)
    obtain rfl : front = [] := List.append_left_eq_self.1 hword
    obtain rfl : header.start = i := hstart
    exact ⟨header, rest, hheader, hline, hat, hidentifier _ rest hat, hfront.1 rfl⟩

/-- A source whose header stands behind the word `always`. -/
def plainBlock : List Char :=
  "reg always_on; always @(a) y = b;".toList

/-- The header that is reported is that of a block. -/
theorem inspected_header_exact_plainBlock :
    (∀ w, WholeWord plainBlock w → "always".toList <:+ w → w = "always".toList) ∧
    ∃ issue ∈ Rule.incompleteSensitivity.check plainBlock, ∃ header rest,
      search .alwaysHeader plainBlock = some header ∧
      issue.line = some (lineOf plainBlock header.start) ∧
      WordAt plainBlock "always".toList header.start rest ∧
      "always".toList ∈ identifiers plainBlock := by
  have hlone : ∀ w ∈ words plainBlock, "always".toList <:+ w → w = "always".toList := by
    decide +kernel
  have hissues : Rule.incompleteSensitivity.check plainBlock ≠ [] := by decide +kernel
  obtain ⟨issue, hissue⟩ := List.exists_mem_of_ne_nil _ hissues
  have hplain := fun w (hw : WholeWord plainBlock w) => hlone w hw.mem_words
  obtain ⟨header, rest, hheader, hline, hat, hmem, -⟩ :=
    (inspected_header_exact plainBlock).2 hplain issue hissue
  exact ⟨hplain, issue, hissue, header, rest, hheader, hline, hat, hmem⟩

/-- A source whose header stands behind a longer word. -/
def longerWord : List Char :=
  "xalways @(a) b".toList

/-- An issue is reported, though the source has no word `always`. Behind such a word even the header
of a block goes unseen. -/
theorem inspected_header_not_always :
    Rule.incompleteSensitivity.check longerWord ≠ [] ∧ "always".toList ∉ identifiers longerWord ∧
    (search .alwaysHeader longerWord).map (·.start) = some 1 ∧
    (longerWord.take 1).getLast?.any isWord = true ∧
    Rule.incompleteSensitivity.check "always @(a) b".toList ≠ [] ∧
    Rule.incompleteSensitivity.check "xalways @(posedge c) always @(a) b".toList = [] := by
  decide +kernel

end HdlReview.Lint
