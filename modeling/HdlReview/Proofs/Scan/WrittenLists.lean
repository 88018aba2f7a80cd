import HdlReview.Proofs.Scan.Names

/-!
# Written sensitivity lists

A sensitivity list is written as names with separators between them: a comma, with blanks around it
or without, or the word `or` between blanks. A name has no blanks and no commas and is not the word
`or` itself; it may start like that word, or have it inside. Reading such a list gives back its
names, each once, however it is written; a list of no names is written as blanks.

## Main definitions

* `ListName`, `Separator`: names, and what stands between two of them
* `WrittenList`, `WrittenList.text`, `WrittenList.names`: a list as it is written
* `Writes names text`: the text is one of the ways to write the names in order

## Main results

* `barren_name`, `separatorHit?_text`: names have no separators in them, and separators are matched
  whole
* `listedSignals_text`: the names that are read from a written list
* `listedSignals_of_writes`: reading undoes writing
-/

namespace HdlReview.Scan

open HdlReview.Text

/-- Blanks, or nothing. -/
abbrev Blanks := {g : List Char // ∀ c ∈ g, isBlank c = true}

/-- Blanks, at least one. -/
abbrev Spacing := {g : List Char // IsRun isBlank g}

/-- **A name in a list**: a text without blanks and commas, other than the word `or`. -/
structure ListName where
  text : List Char
  ne_nil : text ≠ []
  plain : ∀ c ∈ text, isBlank c = false ∧ c ≠ ','
  ne_or : text ≠ "or".toList

/-- Whether a text can be a name in a list. -/
def isListName (text : List Char) : Bool :=
  text != [] && text.all (fun c => !isBlank c && c != ',') && text != "or".toList

/-- The name with a given text. -/
def ListName.ofText (text : List Char) (h : isListName text = true) : ListName where
  text := text
  ne_nil := by
    rintro rfl
    cases h
  plain := by
    intro c hc
    simp only [isListName, Bool.and_eq_true, List.all_eq_true] at h
    simpa using h.1.2 c hc
  ne_or := by
    rintro rfl
    cases h

/-- **What stands between two names**: a comma that may have blanks around it, or the word `or`
between blanks. -/
inductive Separator where
  | comma (before after : Blanks)
  | word (before after : Spacing)

/-- The text of a separator. -/
def Separator.text : Separator → List Char
  | comma g g' => g.1 ++ ',' :: g'.1
  | word g g' => g.1 ++ ("or".toList ++ g'.1)

/-- Whether a separator is the word `or`. -/
def Separator.isOr : Separator → Bool
  | comma .. => false
  | word .. => true

/-- A name, and further names with the separators before them. -/
def writeNames (first : ListName) : List (Separator × ListName) → List Char
  | [] => first.text
  | (sep, name) :: rest => first.text ++ (sep.text ++ writeNames name rest)

/-- **A sensitivity list as it is written**. -/
structure WrittenList where
  leading : Blanks
  first : ListName
  rest : List (Separator × ListName)
  trailing : Blanks

namespace WrittenList

/-- The text of a list. -/
def text (l : WrittenList) : List Char :=
  l.leading.1 ++ (writeNames l.first l.rest ++ l.trailing.1)

/-- The names in a list, in order. -/
def names (l : WrittenList) : List (List Char) :=
  l.first.text :: l.rest.map (·.2.text)

end WrittenList

/-- **The ways to write names**: blanks if there are none, and otherwise a list as above. -/
inductive Writes : List ListName → List Char → Prop
  | nothing (g : Blanks) : Writes [] g.1
  | list (l : WrittenList) : Writes (l.first :: l.rest.map (·.2)) l.text

variable {before : Option Char} {s : List Char}

/-! ## Separators in a text -/

/-- A text at whose front a name ends: it is empty, or starts with a blank or a comma. -/
def EndsName (s : List Char) : Prop :=
  ∀ c, s.head? = some c → isBlank c = true ∨ c = ','

theorem endsName_blanks (g : Blanks) : EndsName g.1 := by
  intro c hc
  exact .inl (g.2 c (List.mem_of_mem_head? hc))

theorem endsName_separator (sep : Separator) (s : List Char) : EndsName (sep.text ++ s) := by
  rcases sep with ⟨g, g'⟩ | ⟨g, g'⟩
  · obtain ⟨_ | ⟨d, g⟩, hg⟩ := g
    · rintro c ⟨⟩
      exact .inr rfl
    · rintro c ⟨⟩
      exact .inl (hg d (List.mem_cons_self ..))
  · obtain ⟨g, hg⟩ := g
    obtain ⟨d, g, rfl⟩ := List.exists_cons_of_ne_nil hg.ne_nil
    rintro c ⟨⟩
    exact .inl (hg.all d (List.mem_cons_self ..))

/-- A separator needs a comma or a blank at its front. -/
theorem separatorHit?_of_plain {c : Char} (hc : isBlank c = false ∧ c ≠ ',') :
    separatorHit? (c :: s) = none := by
  have hblank : ¬ isBlank c = true := by simp [hc.1]
  rw [separatorHit?_word]
  · exact if_neg fun h => h.1 (List.takeWhile_cons_of_neg hblank)
  · rw [List.dropWhile_cons_of_neg hblank]
    simpa using hc.2

namespace ListName

variable (n : ListName)

theorem exists_cons : ∃ c t, n.text = c :: t ∧ isBlank c = false ∧ c ≠ ',' := by
  obtain ⟨c, t, ht⟩ := List.exists_cons_of_ne_nil n.ne_nil
  exact ⟨c, t, ht, n.plain c (by simp [ht])⟩

theorem isBlank_head : ∀ c, (n.text ++ s).head? = some c → isBlank c = false := by
  obtain ⟨d, t, ht, hd, -⟩ := n.exists_cons
  rw [ht]
  rintro c ⟨⟩
  exact hd

/-- Behind blanks, a name does not look like the word `or` between blanks. -/
theorem not_orAhead {g : Blanks} (hs : EndsName s) : ¬ OrAhead (g.1 ++ (n.text ++ s)) := by
  rintro ⟨-, hword, hafter⟩
  rw [(span_of_stop g.2 n.isBlank_head).2] at hword hafter
  have hor : n.text ++ s = "or".toList ++ (n.text ++ s).dropWhile isWord :=
    (keyword_append_dropWhile hword).symm
  generalize (n.text ++ s).dropWhile isWord = t at hor hafter
  -- the name is the word itself, or ends before it does, or goes on with a blank
  rcases List.append_eq_append_iff.1 hor with ⟨u, hu, rfl⟩ | ⟨u, hu, rfl⟩
  · cases u with
    | nil => exact n.ne_or (by simpa using hu.symm)
    | cons c u =>
      have hletters : "or".toList.all (fun c => !isBlank c && c != ',') = true := rfl
      have hc : (!isBlank c && c != ',') = true :=
        List.all_eq_true.1 hletters c (by rw [hu]; simp)
      rcases hs c rfl with hblank | rfl
      · simp [hblank] at hc
      · simp at hc
  · cases u with
    | nil => exact n.ne_or (by simpa using hu)
    | cons c u =>
      have hc : isBlank c = false := (n.plain c (by simp [hu])).1
      exact hafter (List.takeWhile_cons_of_neg (by simp [hc]))

end ListName

/-- **In a name and the blanks before it there is no separator**. -/
theorem barren_name (g : Blanks) (n : ListName) (hs : EndsName s) :
    Barren .separator before (g.1 ++ n.text) s := by
  apply barren_append
  · apply barren_of_isSuffix
    intro before y hy hsuffix
    have hblanks : ∀ c ∈ y, isBlank c = true := fun c hc => g.2 c (hsuffix.subset hc)
    change separatorHit? (y ++ (n.text ++ s)) = none
    rw [separatorHit?_word]
    · exact if_neg (n.not_orAhead (g := ⟨y, hblanks⟩) hs)
    · rw [(span_of_stop hblanks n.isBlank_head).2]
      obtain ⟨c, t, ht, -, hcomma⟩ := n.exists_cons
      rw [ht]
      simpa using hcomma
  · apply barren_of_isSuffix
    intro before y hy hsuffix
    obtain ⟨c, y, rfl⟩ := List.exists_cons_of_ne_nil hy
    exact separatorHit?_of_plain (n.plain c (hsuffix.subset (List.mem_cons_self ..)))

theorem barren_blanks (g : Blanks) : Barren .separator before g.1 [] := by
  apply barren_of_isSuffix
  intro before y hy hsuffix
  have hblanks : ∀ c ∈ y, isBlank c = true := fun c hc => g.2 c (hsuffix.subset hc)
  change separatorHit? (y ++ []) = none
  rw [List.append_nil, separatorHit?, List.dropWhile_eq_nil_iff.2 hblanks]

/-- **A separator is matched whole** if no blank follows it. -/
theorem separatorHit?_text (sep : Separator) (hs : ∀ c, s.head? = some c → isBlank c = false) :
    separatorHit? (sep.text ++ s) = some ⟨sep.text, []⟩ := by
  rcases sep with ⟨g, g'⟩ | ⟨g, g'⟩
  · have hfront : (g.1 ++ ',' :: (g'.1 ++ s)).takeWhile isBlank = g.1 ∧
        (g.1 ++ ',' :: (g'.1 ++ s)).dropWhile isBlank = ',' :: (g'.1 ++ s) := by
      apply span_of_stop g.2
      rintro c ⟨⟩
      rfl
    rw [Separator.text, List.append_assoc, List.cons_append, separatorHit?_comma hfront.2,
      hfront.1, (span_of_stop g'.2 hs).1]
  · have hfront : (g.1 ++ ('o' :: 'r' :: (g'.1 ++ s))).takeWhile isBlank = g.1 ∧
        (g.1 ++ ('o' :: 'r' :: (g'.1 ++ s))).dropWhile isBlank = 'o' :: 'r' :: (g'.1 ++ s) := by
      apply span_of_stop g.2.all
      rintro c ⟨⟩
      rfl
    change separatorHit? ((g.1 ++ ('o' :: 'r' :: g'.1)) ++ s) = _
    rw [List.append_assoc, List.cons_append, List.cons_append, separatorHit?, hfront.1, hfront.2]
    simp [(span_of_stop g'.2.all hs).1, g.2.ne_nil, g'.2.ne_nil, Separator.text]

/-- **What the pattern of separators matches**: a separator with all blanks behind it. -/
theorem separatorHit?_eq_some_iff {h : Hit} :
    separatorHit? s = some h ↔ ∃ (sep : Separator) (rest : List Char), s = sep.text ++ rest ∧
      (∀ c, rest.head? = some c → isBlank c = false) ∧ h = ⟨sep.text, []⟩ := by
  have hblanks : ∀ t : List Char, ∀ c ∈ t.takeWhile isBlank, isBlank c = true :=
    fun t c hc => List.mem_takeWhile_imp hc
  constructor
  · intro hh
    by_cases hcomma : (s.dropWhile isBlank).head? = some ','
    · obtain ⟨t, ht⟩ := List.head?_eq_some_iff.1 hcomma
      rw [separatorHit?_comma ht] at hh
      refine ⟨.comma ⟨_, hblanks s⟩ ⟨_, hblanks t⟩, t.dropWhile isBlank, comma_append_eq ht,
        head?_dropWhile_eq_false isBlank t, ?_⟩
      exact (Option.some.inj hh).symm
    · rw [separatorHit?_word hcomma, Option.ite_none_right_eq_some] at hh
      obtain ⟨hor, hh⟩ := hh
      have hback := head?_dropWhile_eq_false isBlank ((s.dropWhile isBlank).dropWhile isWord)
      refine ⟨.word ⟨_, hor.1, hblanks s⟩ ⟨_, hor.2.2, hblanks _⟩, _, ?_, hback, ?_⟩
      · rw [Separator.text, ← List.append_assoc]
        exact hor.append_eq
      · rw [Separator.text, ← List.append_assoc]
        exact (Option.some.inj hh).symm
  · rintro ⟨sep, rest, rfl, hrest, rfl⟩
    exact separatorHit?_text sep hrest

/-! ## The pieces of a written list -/

/-- A text without blanks is what is left of it between blanks. -/
theorem trimBlanks_between {n : List Char} (g g' : Blanks) (hn : ∀ c ∈ n, isBlank c = false)
    (hne : n ≠ []) : trimBlanks (g.1 ++ (n ++ g'.1)) = n := by
  have hfront : (g.1 ++ (n ++ g'.1)).dropWhile isBlank = n ++ g'.1 := by
    refine (span_of_stop g.2 ?_).2
    intro c hc
    obtain ⟨d, t, rfl⟩ := List.exists_cons_of_ne_nil hne
    obtain rfl := Option.some.inj hc
    exact hn d (List.mem_cons_self ..)
  have hback : (g'.1.reverse ++ n.reverse).dropWhile isBlank = n.reverse := by
    refine (span_of_stop (by simpa using g'.2) ?_).2
    intro c hc
    exact hn c (List.mem_reverse.1 (List.mem_of_mem_head? hc))
  rw [trimBlanks, trim, hfront, List.reverse_append, hback, List.reverse_reverse]

/-- **The pieces between the separators** of a written list are its names between blanks. -/
theorem map_trimBlanks_cutFrom (g g' : Blanks) (first : ListName)
    (rest : List (Separator × ListName)) :
    (cutFrom .separator 0 before (g.1 ++ (writeNames first rest ++ g'.1))).map trimBlanks =
      first.text :: rest.map (·.2.text) := by
  have hplain : ∀ n : ListName, ∀ c ∈ n.text, isBlank c = false := fun n c hc => (n.plain c hc).1
  induction rest generalizing first g before with
  | nil =>
    have hbarren : Barren .separator before (g.1 ++ (first.text ++ g'.1)) [] := by
      rw [← List.append_assoc]
      apply barren_append
      · rw [List.append_nil]
        exact barren_name g first (endsName_blanks g')
      · exact barren_blanks g'
    rw [writeNames, cutFrom_barren hbarren, List.map_singleton, List.map_nil,
      trimBlanks_between g g' (hplain first) first.ne_nil]
  | cons x rest ih =>
    obtain ⟨sep, n⟩ := x
    -- no blank stands behind the separator, because a name follows
    have hnext : ∀ c, (writeNames n rest ++ g'.1).head? = some c → isBlank c = false := by
      cases rest with
      | nil => exact n.isBlank_head
      | cons y rest =>
        rw [writeNames, List.append_assoc]
        exact n.isBlank_head
    have hsep : ∀ b, Pattern.separator.hit? b (sep.text ++ (writeNames n rest ++ g'.1)) =
        some ⟨sep.text, []⟩ := fun _ => separatorHit?_text sep hnext
    have hne : sep.text ≠ [] := by
      rcases sep with ⟨g, g'⟩ | ⟨g, g'⟩ <;> simp [Separator.text]
    have hpiece : trimBlanks (g.1 ++ first.text) = first.text := by
      simpa using trimBlanks_between g ⟨[], by simp⟩ (hplain first) first.ne_nil
    rw [writeNames, List.append_assoc, List.append_assoc, ← List.append_assoc g.1,
      cutFrom_append (barren_name g first (endsName_separator sep _)),
      cutFrom_hit (h := ⟨sep.text, []⟩) hne (hsep _), List.modifyHead_cons, List.append_nil,
      List.map_cons, hpiece, List.map_cons]
    exact congrArg (first.text :: ·) (ih (g := ⟨[], by simp⟩) n)

/-- **Reading a written list** gives back its names, each once. -/
theorem listedSignals_text (l : WrittenList) : listedSignals l.text = l.names.eraseDups := by
  have hnames : ∀ n ∈ l.names, n ≠ [] := by
    intro n hn
    rcases List.mem_cons.1 hn with rfl | hn
    · exact l.first.ne_nil
    · obtain ⟨x, -, rfl⟩ := List.mem_map.1 hn
      exact x.2.ne_nil
  have hpieces : (cut .separator l.text).map trimBlanks = l.names :=
    map_trimBlanks_cutFrom l.leading l.trailing l.first l.rest
  rw [listedSignals, hpieces, List.filter_eq_self.2]
  intro n hn
  simpa using hnames n hn

/-- In blanks there are no names. -/
theorem listedSignals_blanks (g : Blanks) : listedSignals g.1 = [] := by
  have hpiece : trimBlanks g.1 = [] := by
    rw [trimBlanks, trim, List.dropWhile_eq_nil_iff.2 g.2]
    rfl
  rw [listedSignals, cut, cutFrom_barren (barren_blanks g), List.map_singleton, hpiece]
  rfl

theorem or_not_mem_listedSignals (l : WrittenList) : "or".toList ∉ listedSignals l.text := by
  rw [listedSignals_text, List.mem_eraseDups, WrittenList.names, List.mem_cons, List.mem_map]
  rintro (h | ⟨x, -, h⟩)
  · exact l.first.ne_or h.symm
  · exact x.2.ne_or h

/-- **Reading undoes writing.** Whatever separators and blanks a list of names is written with, the
names that are read from the text are just those of the list, each once. -/
theorem listedSignals_of_writes {names : List ListName} {text : List Char}
    (hwrites : Writes names text) :
    (listedSignals text).Nodup ∧ ∀ x, x ∈ listedSignals text ↔ x ∈ names.map (·.text) := by
  refine ⟨nodup_eraseDups _, fun x => ?_⟩
  cases hwrites with
  | nothing g => rw [listedSignals_blanks, List.map_nil]
  | list l =>
    rw [listedSignals_text, List.mem_eraseDups, WrittenList.names, List.map_cons, List.map_map]
    rfl

/-- The word `or` inside of names, in a list with both kinds of separators and a name twice. -/
theorem listedSignals_of_writes_order :
    Writes [.ofText "order".toList rfl, .ofText "floor".toList rfl, .ofText "or_".toList rfl,
      .ofText "floor".toList rfl] " order\tor floor,or_ , floor\n".toList ∧
    ∀ x, x ∈ listedSignals " order\tor floor,or_ , floor\n".toList ↔
      x ∈ ["order".toList, "floor".toList, "or_".toList, "floor".toList] := by
  have hspace : ∀ c ∈ [' '], isBlank c = true := List.forall_mem_singleton.2 rfl
  have hfeed : ∀ c ∈ ['\n'], isBlank c = true := List.forall_mem_singleton.2 rfl
  have hwrites : Writes [.ofText "order".toList rfl, .ofText "floor".toList rfl,
      .ofText "or_".toList rfl, .ofText "floor".toList rfl]
      " order\tor floor,or_ , floor\n".toList :=
    .list ⟨⟨[' '], hspace⟩, .ofText "order".toList rfl,
      [(.word ⟨['\t'], by decide⟩ ⟨[' '], by decide⟩, .ofText "floor".toList rfl),
        (.comma ⟨[], by simp⟩ ⟨[], by simp⟩, .ofText "or_".toList rfl),
        (.comma ⟨[' '], hspace⟩ ⟨[' '], hspace⟩, .ofText "floor".toList rfl)], ⟨['\n'], hfeed⟩⟩
  exact ⟨hwrites, (listedSignals_of_writes hwrites).2⟩

end HdlReview.Scan
