import HdlReview.Proofs.Scan.Places
import HdlReview.Scan.Signals

/-!
# Headers of a source

A header is `@`, blanks, and a list in parentheses without parentheses inside. Inside a closed
header no other starts: the only parentheses are its own, and an `@` in its list has no opening one
behind it before the header ends. So the search for headers finds the lists of all of them, whatever
opens before a header and is never closed, and what the rules ask of the headers can be said of all
lists that stand between the parentheses of a header. A list behind `always` is one with the letters
`always` before the header, on one line; of these the rules look at the first.

## Main definitions

* `ListOf s list`: the list of some header of the source
* `AlwaysAt s i list`, `FirstAlways s i list`: a list behind `always`, and the first one
* `HasEdge list`: a clock edge is among the whole words of a list
* `ClockAt list i name`: the word `posedge` at the place `i` and the name behind it
* `Clock list name`: the name behind the first `posedge` with a name

## Main results

* `listHit?_eq_some_iff`, `exposed_header`: the pattern of headers
* `mem_headerLists_iff`: the lists that are found are the lists of all headers
* `FirstAlways.search`, `firstAlways_of_search`: the header behind `always` that is found
* `hasEdgeHeader_iff`, `mem_clockSignals_iff`: clock edges and clocks
-/

namespace HdlReview.Scan

open HdlReview.Text

variable {before : Option Char} {i : Nat} {s list name : List Char} {h : Hit}

/-! ## The pattern of headers -/

/-- The text of a header. -/
def headerText (gap list : List Char) : List Char :=
  '@' :: (gap ++ '(' :: (list ++ [')']))

theorem headerText_append (gap list rest : List Char) :
    headerText gap list ++ rest = '@' :: (gap ++ '(' :: (list ++ ')' :: rest)) := by
  simp [headerText]

theorem listHit?_eq_some_iff {q : Char → Bool} (hq : q ')' = false) :
    listHit? q s = some h ↔ ∃ gap list rest, s = headerText gap list ++ rest ∧
      (∀ c ∈ gap, isBlank c = true) ∧ (∀ c ∈ list, q c = true) ∧
      h = ⟨headerText gap list, [list]⟩ := by
  constructor
  · intro hh
    rw [listHit?.eq_def] at hh
    split at hh
    · next u =>
      split at hh
      · next t hu =>
        split at hh
        · next rest ht =>
          refine ⟨u.takeWhile isBlank, t.takeWhile q, rest, ?_, ?_, ?_, ?_⟩
          · rw [header_eq hu ht]
            simp [headerText]
          · exact fun c hc => List.mem_takeWhile_imp hc
          · exact fun c hc => List.mem_takeWhile_imp hc
          · rw [← Option.some.inj hh]
            simp [headerText]
        · cases hh
      · cases hh
    · cases hh
  · rintro ⟨gap, list, rest, rfl, hgap, hlist, rfl⟩
    obtain ⟨hgap', hopen⟩ : (gap ++ '(' :: (list ++ ')' :: rest)).takeWhile isBlank = gap ∧
        (gap ++ '(' :: (list ++ ')' :: rest)).dropWhile isBlank = '(' :: (list ++ ')' :: rest) := by
      apply span_of_stop hgap
      rintro c ⟨⟩
      rfl
    obtain ⟨hlist', hclose⟩ : (list ++ ')' :: rest).takeWhile q = list ∧
        (list ++ ')' :: rest).dropWhile q = ')' :: rest := by
      apply span_of_stop hlist
      rintro c ⟨⟩
      exact hq
    rw [headerText_append]
    simp [listHit?, hopen, hclose, hgap', hlist', headerText]

theorem hit?_header_eq_some_iff :
    Pattern.header.hit? before s = some h ↔ ∃ gap list rest, s = headerText gap list ++ rest ∧
      (∀ c ∈ gap, isBlank c = true) ∧ (∀ c ∈ list, inHeader c = true) ∧
      h = ⟨headerText gap list, [list]⟩ :=
  listHit?_eq_some_iff rfl

theorem captures_header : Pattern.header.Captures := by
  intro before s h hh
  obtain ⟨gap, list, rest, -, -, -, rfl⟩ := hit?_header_eq_some_iff.1 hh
  exact ⟨list, rfl⟩

theorem hit?_header_eq_none (hs : s.head? ≠ some '@') : Pattern.header.hit? before s = none :=
  listHit?_eq_none hs

theorem inHeader_iff {c : Char} : inHeader c = true ↔ c ≠ '(' ∧ c ≠ ')' := by
  simp [inHeader]

theorem listHit?_at_eq_none {q : Char → Bool} (hs : (s.dropWhile isBlank).head? ≠ some '(') :
    listHit? q ('@' :: s) = none := by
  rw [listHit?]
  split
  · next t ht =>
    rw [ht] at hs
    exact absurd rfl hs
  · rfl

/-- Behind blanks in a list there is another character of the list, or its end. -/
theorem head?_dropWhile_list {rest : List Char} (hlist : ∀ c ∈ list, inHeader c = true) :
    ((list ++ ')' :: rest).dropWhile isBlank).head? ≠ some '(' := by
  induction list with
  | nil =>
    intro hopen
    cases hopen
  | cons c list ih =>
    rw [List.cons_append, List.dropWhile_cons]
    split
    · exact ih fun d hd => hlist d (List.mem_cons_of_mem c hd)
    · rintro ⟨⟩
      exact (inHeader_iff.1 (hlist '(' (List.mem_cons_self ..))).1 rfl

/-- In the list of a header and at its closing parenthesis no header starts: behind an `@` in the
list the next parenthesis is the closing one. -/
theorem barren_list {rest : List Char} (hlist : ∀ c ∈ list, inHeader c = true) :
    Barren .header before (list ++ [')']) rest := by
  induction list generalizing before with
  | nil => exact ⟨hit?_header_eq_none (by simp), trivial⟩
  | cons c list ih =>
    have hrest : ∀ d ∈ list, inHeader d = true := fun d hd => hlist d (List.mem_cons_of_mem c hd)
    refine ⟨?_, ih hrest⟩
    by_cases hc : c = '@'
    · subst hc
      change listHit? inHeader ('@' :: (list ++ [')'] ++ rest)) = none
      apply listHit?_at_eq_none
      rw [List.append_assoc]
      exact head?_dropWhile_list hrest
    · exact hit?_header_eq_none (by simpa using hc)

/-- **No header starts inside another**. -/
theorem exposed_header : Pattern.header.Exposed := by
  intro before s h hh
  obtain ⟨gap, list, rest, rfl, hgap, hlist, rfl⟩ := hit?_header_eq_some_iff.1 hh
  refine ⟨'@', gap ++ '(' :: (list ++ [')']), rest, rfl, rfl, ?_⟩
  apply barren_append
  · apply barren_of_isSuffix
    intro before y hy hsuffix
    obtain ⟨c, y, rfl⟩ := List.exists_cons_of_ne_nil hy
    exact hit?_blank (p := .header) nofun (hgap c (hsuffix.subset (List.mem_cons_self ..)))
  · exact ⟨hit?_header_eq_none (by simp), barren_list hlist⟩

/-! ## Lists -/

/-- **The list of a header**: a text without parentheses between those of a header. -/
def ListOf (s list : List Char) : Prop :=
  ∃ pre gap post, s = pre ++ '@' :: (gap ++ '(' :: (list ++ ')' :: post)) ∧
    (∀ c ∈ gap, isBlank c = true) ∧ ∀ c ∈ list, c ≠ '(' ∧ c ≠ ')'

theorem exists_capturedAt_header_iff : (∃ i, CapturedAt .header s i list) ↔ ListOf s list := by
  constructor
  · rintro ⟨_, text, a, b, rfl, rfl, hh⟩
    obtain ⟨gap, list', post, rfl, hgap, hlist, he⟩ := hit?_header_eq_some_iff.1 hh
    obtain rfl : list = list' := eq_of_hit_eq he
    refine ⟨a, gap, post, by rw [headerText_append], hgap, ?_⟩
    exact fun c hc => inHeader_iff.1 (hlist c hc)
  · rintro ⟨pre, gap, post, rfl, hgap, hlist⟩
    refine ⟨pre.length, headerText gap list, pre, _, rfl, rfl, ?_⟩
    refine hit?_header_eq_some_iff.2 ⟨gap, list, post, ?_, hgap, ?_, rfl⟩
    · rw [headerText_append]
    · exact fun c hc => inHeader_iff.2 (hlist c hc)

/-- **The lists that are found** are those of all headers. -/
theorem mem_headerLists_iff : list ∈ headerLists s ↔ ListOf s list := by
  rw [headerLists, List.mem_map, ← exists_capturedAt_header_iff]
  simp only [← captures_header.findAll_iff exposed_header]
  constructor
  · rintro ⟨m, hm, rfl⟩
    exact ⟨m.start, m, hm, rfl, rfl⟩
  · rintro ⟨i, m, hm, rfl, -⟩
    exact ⟨m, hm, rfl⟩

/-! ## Lists behind `always` -/

/-- **A list behind `always` at a place**: the letters `always`, blanks or none, and a header whose
list has no parentheses and no line breaks. The letters may be the end of a longer word. -/
def AlwaysAt (s : List Char) (i : Nat) (list : List Char) : Prop :=
  ∃ a gap gap' b,
    s = a ++ ("always".toList ++ (gap ++ '@' :: (gap' ++ '(' :: (list ++ ')' :: b)))) ∧
    a.length = i ∧ (∀ c ∈ gap, isBlank c = true) ∧ (∀ c ∈ gap', isBlank c = true) ∧
    ∀ c ∈ list, c ≠ '(' ∧ c ≠ ')' ∧ c ≠ '\n'

/-- **The first list behind `always`**: the one at the least place. -/
def FirstAlways (s : List Char) (i : Nat) (list : List Char) : Prop :=
  AlwaysAt s i list ∧ ∀ j other, AlwaysAt s j other → i ≤ j

theorem inLineHeader_iff {c : Char} : inLineHeader c = true ↔ c ≠ '(' ∧ c ≠ ')' ∧ c ≠ '\n' := by
  simp [inLineHeader, inHeader, and_assoc]

theorem hit?_alwaysHeader_eq_some_iff :
    Pattern.alwaysHeader.hit? before s = some h ↔ ∃ gap gap' list b,
      s = "always".toList ++ (gap ++ (headerText gap' list ++ b)) ∧
      (∀ c ∈ gap, isBlank c = true) ∧ (∀ c ∈ gap', isBlank c = true) ∧
      (∀ c ∈ list, inLineHeader c = true) ∧
      h = ⟨"always".toList ++ gap ++ headerText gap' list, [list]⟩ := by
  rw [Pattern.hit?]
  constructor
  · intro hh
    rw [alwaysHit?] at hh
    split at hh
    · next t ht =>
      rw [List.isPrefixOf?_eq_some_iff_append_eq] at ht
      obtain ⟨h', hlist, rfl⟩ := Option.map_eq_some_iff.1 hh
      obtain ⟨gap', list, b, ht', hgap', hin, rfl⟩ := (listHit?_eq_some_iff rfl).1 hlist
      refine ⟨t.takeWhile isBlank, gap', list, b, ?_, ?_, hgap', hin, rfl⟩
      · rw [← ht', List.takeWhile_append_dropWhile, ht]
      · exact fun c hc => List.mem_takeWhile_imp hc
    · cases hh
  · rintro ⟨gap, gap', list, b, rfl, hgap, hgap', hin, rfl⟩
    obtain ⟨hfront, hback⟩ : (gap ++ (headerText gap' list ++ b)).takeWhile isBlank = gap ∧
        (gap ++ (headerText gap' list ++ b)).dropWhile isBlank = headerText gap' list ++ b := by
      apply span_of_stop hgap
      rintro c ⟨⟩
      rfl
    have hhit : listHit? inLineHeader (headerText gap' list ++ b) =
        some ⟨headerText gap' list, [list]⟩ :=
      (listHit?_eq_some_iff rfl).2 ⟨gap', list, b, rfl, hgap', hin, rfl⟩
    rw [alwaysHit?, List.isPrefixOf?_eq_some_iff_append_eq.2 rfl]
    simp only [hfront, hback, hhit, Option.map_some]

theorem captures_alwaysHeader : Pattern.alwaysHeader.Captures := by
  intro before s h hh
  obtain ⟨gap, gap', list, b, -, -, -, -, rfl⟩ := hit?_alwaysHeader_eq_some_iff.1 hh
  exact ⟨list, rfl⟩

theorem capturedAt_alwaysHeader_iff : CapturedAt .alwaysHeader s i list ↔ AlwaysAt s i list := by
  constructor
  · rintro ⟨text, a, t, rfl, rfl, hh⟩
    obtain ⟨gap, gap', list', b, rfl, hgap, hgap', hin, he⟩ := hit?_alwaysHeader_eq_some_iff.1 hh
    obtain rfl : list = list' := eq_of_hit_eq he
    refine ⟨a, gap, gap', b, by rw [headerText_append], rfl, hgap, hgap', ?_⟩
    exact fun c hc => inLineHeader_iff.1 (hin c hc)
  · rintro ⟨a, gap, gap', b, rfl, rfl, hgap, hgap', hin⟩
    refine ⟨"always".toList ++ gap ++ headerText gap' list, a, _, rfl, rfl, ?_⟩
    refine hit?_alwaysHeader_eq_some_iff.2 ⟨gap, gap', list, b, ?_, hgap, hgap', ?_, rfl⟩
    · rw [headerText_append]
    · exact fun c hc => inLineHeader_iff.2 (hin c hc)

theorem search_alwaysHeader_eq_none_iff :
    search .alwaysHeader s = none ↔ ∀ i list, ¬ AlwaysAt s i list := by
  simp only [captures_alwaysHeader.search_eq_none, capturedAt_alwaysHeader_iff]

/-- **The header that is found** is the first one. -/
theorem FirstAlways.search (hfirst : FirstAlways s i list) :
    ∃ m, Scan.search .alwaysHeader s = some m ∧ m.group = list ∧ m.start = i := by
  rw [captures_alwaysHeader.search_iff]
  simpa only [FirstAlways, ← capturedAt_alwaysHeader_iff] using hfirst

theorem firstAlways_of_search {m : Match} (hm : Scan.search .alwaysHeader s = some m) :
    FirstAlways s m.start m.group := by
  have hfirst := captures_alwaysHeader.search_iff.1 ⟨m, hm, rfl, rfl⟩
  simpa only [FirstAlways, ← capturedAt_alwaysHeader_iff] using hfirst

/-! ## Clock edges -/

/-- **A clock edge in a list**: `posedge` or `negedge` as a whole word. -/
def HasEdge (list : List Char) : Prop :=
  WholeWord list "posedge".toList ∨ WholeWord list "negedge".toList

theorem contains_edge_iff : contains .edge list = true ↔ HasEdge list := by
  rw [Pattern.edge, contains_word_iff]
  simp only [isChoice, List.any_cons, List.any_nil, Bool.or_false, Bool.false_eq_true, if_false,
    Bool.or_eq_true, beq_iff_eq]
  constructor
  · rintro ⟨w, hw, rfl | rfl⟩
    · exact .inl hw
    · exact .inr hw
  · rintro (hw | hw)
    · exact ⟨_, hw, .inl rfl⟩
    · exact ⟨_, hw, .inr rfl⟩

theorem hasEdgeHeader_iff : hasEdgeHeader s = true ↔ ∃ list, ListOf s list ∧ HasEdge list := by
  simp only [hasEdgeHeader, List.any_eq_true, mem_headerLists_iff, contains_edge_iff]

/-! ## Clocks -/

/-- **A clock at a place** of a list: the word `posedge`, which no word character precedes, blanks,
and an identifier that goes on as long as it can. -/
def ClockAt (list : List Char) (i : Nat) (name : List Char) : Prop :=
  ∃ a gap rest, list = a ++ ("posedge".toList ++ (gap ++ (name ++ rest))) ∧ a.length = i ∧
    (∀ c, a.getLast? = some c → isWord c = false) ∧ IsRun isBlank gap ∧
    isIdentifier name = true ∧ ∀ c, rest.head? = some c → isIdentRest c = false

/-- **The clock of a list**: the one at the least place. -/
def Clock (list name : List Char) : Prop :=
  ∃ i, ClockAt list i name ∧ ∀ j other, ClockAt list j other → i ≤ j

theorem posedgeHit?_eq_some_iff :
    posedgeHit? before s = some h ↔ ∃ gap name rest,
      s = "posedge".toList ++ (gap ++ (name ++ rest)) ∧ insideWord before = false ∧
      IsRun isBlank gap ∧ isIdentifier name = true ∧
      (∀ c, rest.head? = some c → isIdentRest c = false) ∧
      h = ⟨"posedge".toList ++ gap ++ name, [name]⟩ := by
  rw [posedgeHit?_eq]
  simp only [Option.ite_none_right_eq_some, Option.some.injEq]
  constructor
  · rintro ⟨⟨hin, hword, hgap, hname⟩, rfl⟩
    refine ⟨_, _, ((s.dropWhile isWord).dropWhile isBlank).dropWhile isIdentRest, ?_, hin,
      ⟨hgap, fun c hc => List.mem_takeWhile_imp hc⟩, hname, ?_, rfl⟩
    · rw [List.takeWhile_append_dropWhile, List.takeWhile_append_dropWhile]
      exact (keyword_append_dropWhile hword).symm
    · exact head?_dropWhile_eq_false isIdentRest _
  · rintro ⟨gap, name, rest, rfl, hin, hgap, hname, hrest, rfl⟩
    have hk : IsRun isWord "posedge".toList := by decide
    have hident := isIdentRest_of_isIdentifier hname
    -- the name does not start with a blank, and the blanks end the word
    obtain ⟨hblanks, hname'⟩ : (gap ++ (name ++ rest)).takeWhile isBlank = gap ∧
        (gap ++ (name ++ rest)).dropWhile isBlank = name ++ rest := by
      apply span_of_stop hgap.all
      intro c hc
      cases name with
      | nil => cases hname
      | cons d name =>
        obtain rfl := Option.some.inj hc
        exact isBlank_eq_false_of_isWord (isWord_of_isIdentRest (hident d (List.mem_cons_self ..)))
    obtain ⟨hlead, hdrop⟩ := leadingWord_keyword (u := gap ++ (name ++ rest)) hk
      (by rw [hblanks]; exact hgap.ne_nil)
    rw [hdrop, hblanks, hname', (span_of_stop hident hrest).1]
    exact ⟨⟨hin, hlead, hgap.ne_nil, hname⟩, rfl⟩

theorem captures_posedge : Pattern.posedge.Captures := by
  intro before s h hh
  obtain ⟨gap, name, rest, -, -, -, -, -, rfl⟩ := posedgeHit?_eq_some_iff.1 hh
  exact ⟨name, rfl⟩

theorem capturedAt_posedge_iff : CapturedAt .posedge list i name ↔ ClockAt list i name := by
  constructor
  · rintro ⟨text, a, b, rfl, rfl, hh⟩
    obtain ⟨gap, name', rest, rfl, hin, hgap, hname, hrest, he⟩ := posedgeHit?_eq_some_iff.1 hh
    obtain rfl : name = name' := eq_of_hit_eq he
    rw [behind_none_eq_getLast?, insideWord_eq_false_iff] at hin
    exact ⟨a, gap, rest, rfl, rfl, hin, hgap, hname, hrest⟩
  · rintro ⟨a, gap, rest, rfl, rfl, hin, hgap, hname, hrest⟩
    refine ⟨_, a, _, rfl, rfl, posedgeHit?_eq_some_iff.2
      ⟨gap, name, rest, rfl, ?_, hgap, hname, hrest, rfl⟩⟩
    rwa [behind_none_eq_getLast?, insideWord_eq_false_iff]

/-- **The clock that is found** in a list is the one at the least place. -/
theorem clockOf?_eq_some_iff : clockOf? list = some name ↔ Clock list name := by
  rw [clockOf?, Option.map_eq_some_iff, Clock]
  simp only [← capturedAt_posedge_iff, ← captures_posedge.search_iff]
  constructor
  · rintro ⟨m, hm, rfl⟩
    exact ⟨m.start, m, hm, rfl, rfl⟩
  · rintro ⟨i, m, hm, rfl, -⟩
    exact ⟨m, hm, rfl⟩

/-- **The clocks of a source** are those of the lists of its headers. -/
theorem mem_clockSignals_iff :
    name ∈ clockSignals s ↔ ∃ list, ListOf s list ∧ Clock list name := by
  simp only [clockSignals, List.mem_eraseDups, List.mem_filterMap, mem_headerLists_iff,
    clockOf?_eq_some_iff]

end HdlReview.Scan
