import HdlReview.Proofs.Scan.Hits
import HdlReview.Proofs.Scan.Lines
import Mathlib.Data.List.Forall2

/-!
# Searching corresponding texts

Searches in corresponding texts run side by side. Where a pattern has its first match in one text it
has its first match in the other, behind stretches with as many line feeds, and what the matches
capture corresponds. First matches, all matches and pieces all follow from this.

Inside a word or a gap a pattern matches only if it matches at the front of it. The pattern that
opens with `always` is the exception: it may start inside a word, and words that end in `always` are
never renamed.

## Main definitions

* `FirstMatches p P Q before before' s t`: the first matches of `p` in two texts
* `Follows r p Q`: the pattern `p` matches at corresponding places alike
* `SameLines a a'`: stretches with as many line feeds

## Main results

* `Follows.firstMatches`, `firstMatches_alwaysHeader`: corresponding texts have first matches alike
* `FirstMatches.search_rel`, `Follows.findAll_rel`, `Follows.cut_rel`: searches side by side
-/

namespace HdlReview.Scan

open HdlReview.Text

variable {r : Renaming} {p : Pattern} {before before' : Option Char} {s t : List Char}
  {P : List Char → List Char → Prop} {Q : List Char → List Char → Hit → Hit → Prop}

/-- **The first matches** of a pattern in two texts: there is none, or there are two, with stretches
related by `P` before them and related to what they match by `Q`. -/
inductive FirstMatches (p : Pattern) (P : List Char → List Char → Prop)
    (Q : List Char → List Char → Hit → Hit → Prop) (before before' : Option Char)
    (s t : List Char) : Prop
  | none (hs : Barren p before s []) (ht : Barren p before' t [])
  | some {a b a' b' : List Char} {m m' : Hit} (es : s = a ++ b) (et : t = a' ++ b')
      (ha : Barren p before a b) (ha' : Barren p before' a' b') (hP : P a a')
      (hm : p.hit? (behind before a) b = some m) (hm' : p.hit? (behind before' a') b' = some m')
      (hQ : Q b b' m m')

/-- Barren stretches in front of two texts do not change their first matches. -/
theorem FirstMatches.prepend {x x' : List Char} (hx : Barren p before x s)
    (hx' : Barren p before' x' t) (hP : ∀ a a', a <+: s → P a a' → P (x ++ a) (x' ++ a'))
    (h : FirstMatches p P Q (behind before x) (behind before' x') s t) :
    FirstMatches p P Q before before' (x ++ s) (x' ++ t) := by
  cases h with
  | none hs ht =>
    exact .none (barren_append (by rwa [List.append_nil]) hs)
      (barren_append (by rwa [List.append_nil]) ht)
  | @some a b a' b' m m' es et ha ha' hPa hm hm' hQ =>
    subst es et
    rw [← behind_append] at hm hm'
    exact .some (List.append_assoc ..).symm (List.append_assoc ..).symm (barren_append hx ha)
      (barren_append hx' ha') (hP a a' (List.prefix_append a b) hPa) hm hm' hQ

/-! ## Runs of one class -/

/-- Only the pattern that opens with `always` matches inside a word. -/
theorem hit?_inside_word (hp : p ≠ .alwaysHeader) {c d : Char} (hc : isWord c = true)
    (hd : isWord d = true) : p.hit? (some c) (d :: s) = none := by
  have hin : insideWord (some c) = true := hc
  have hne : ∀ e, isMark e = true → (d :: s).head? ≠ some e := fun e he h =>
    ne_of_isWord hd he (Option.some.inj h)
  cases p with
  | word caseless choices => simp [Pattern.hit?, wordHit?, hin]
  | identifier => simp [Pattern.hit?, wordHit?, hin]
  | header => exact listHit?_eq_none (hne '@' (by decide))
  | alwaysHeader => exact absurd rfl hp
  | separator =>
    have hb : ¬ isBlank d = true := by simp [isBlank_eq_false_of_isWord hd]
    have hdrop : (d :: s).dropWhile isBlank = d :: s := List.dropWhile_cons_of_neg hb
    change separatorHit? (d :: s) = none
    rw [separatorHit?_word (by rw [hdrop]; exact hne ',' (by decide))]
    exact if_neg fun h => h.1 (List.takeWhile_cons_of_neg hb)
  | blocking => exact blockingHit?_eq_none (hne '=' (by decide))
  | nonBlocking => exact nonBlockingHit?_eq_none (hne '<' (by decide))
  | posedge =>
    change posedgeHit? (some c) (d :: s) = none
    rw [posedgeHit?_eq]
    exact if_neg fun h => by simp [hin] at h
  | assignment => simp [Pattern.hit?, assignmentHit?, hin]

/-- Only separators match at a blank. -/
theorem hit?_blank (hp : p ≠ .separator) {c : Char} (hc : isBlank c = true) :
    p.hit? before (c :: s) = none := by
  have hw : leadingWord (c :: s) = [] := leadingWord_cons (isWord_eq_false_of_isBlank hc)
  have hne : ∀ e, isBlank e = false → (c :: s).head? ≠ some e := by
    rintro e he ⟨⟩
    rw [hc] at he
    exact absurd he (by decide)
  cases p with
  | word caseless choices => simp [Pattern.hit?, wordHit?, hw]
  | identifier => simp [Pattern.hit?, wordHit?, hw]
  | header => exact listHit?_eq_none (hne '@' (by decide))
  | alwaysHeader => exact alwaysHit?_eq_none (hne 'a' (by decide))
  | separator => exact absurd rfl hp
  | blocking => exact blockingHit?_eq_none (hne '=' (by decide))
  | nonBlocking => exact nonBlockingHit?_eq_none (hne '<' (by decide))
  | posedge =>
    change posedgeHit? before (c :: s) = none
    rw [posedgeHit?_eq]
    exact if_neg fun h => by simp [hw] at h
  | assignment => simp [Pattern.hit?, assignmentHit?, hw, isIdentifier]

/-- A separator takes in all blanks before it. -/
theorem separatorHit?_tail {c : Char} (hc : isBlank c = true)
    (h : separatorHit? (c :: s) = none) : separatorHit? s = none := by
  have hd : (c :: s).dropWhile isBlank = s.dropWhile isBlank := List.dropWhile_cons_of_pos hc
  -- what follows the blanks is the same from either place
  by_cases hcomma : (s.dropWhile isBlank).head? = some ','
  · obtain ⟨u, hu⟩ := List.head?_eq_some_iff.1 hcomma
    simp [separatorHit?_comma (hd.trans hu)] at h
  · rw [separatorHit?_word (by rwa [hd])] at h
    rw [separatorHit?_word hcomma]
    refine if_neg fun hs => ?_
    have ho : OrAhead (c :: s) := by
      rw [OrAhead, hd, List.takeWhile_cons_of_pos hc]
      exact ⟨List.cons_ne_nil _ _, hs.2⟩
    simp [ho] at h

theorem barren_word (hp : p ≠ .alwaysHeader) {w : List Char} (hw : ∀ c ∈ w, isWord c = true)
    (front : p.hit? before (w ++ s) = none) : Barren p before w s :=
  barren_of_class (fun _ _ _ _ hc hd _ => hit?_inside_word hp hc hd) hw front

theorem barren_gap {g : List Char} (hg : ∀ c ∈ g, isGap c = true)
    (front : p.hit? before (g ++ s) = none) : Barren p before g s := by
  refine barren_of_class (fun before c d s hc hd h => ?_) hg front
  by_cases hp : p = .separator
  · subst hp
    exact separatorHit?_tail (isBlank_of_isGap hc) h
  · exact hit?_blank hp (isBlank_of_isGap hd)

/-! ## First matches -/

/-- The pattern matches at corresponding places on both sides or on neither, and `Q` relates what it
matches. -/
def Follows (r : Renaming) (p : Pattern) (Q : List Char → List Char → Hit → Hit → Prop) : Prop :=
  ∀ ⦃before before' : Option Char⦄ ⦃s t : List Char⦄, Corresponds r s t →
    Abut before before' s → Option.Rel (Q s t) (p.hit? before s) (p.hit? before' t)

theorem Corresponds.word_append {w a a' : List Char} (hw : IsRun isWord w)
    (hr : (r.onWord w).takeWhile isIdentRest = r.onWord (w.takeWhile isIdentRest))
    (hs : leadingWord s = []) (ha : a <+: s) (h : Corresponds r a a') :
    Corresponds r (w ++ a) (r.onWord w ++ a') :=
  .word hw (leadingWord_of_isPrefix ha hs) hr h

/-- One stretch of a search: the front matches on both sides, or a stretch is passed over on both
sides. -/
theorem Follows.stretch (hQ : Follows r p Q) {x x' : List Char}
    (h : Corresponds r (x ++ s) (x' ++ t)) (hab : Abut before before' (x ++ s))
    (hx : p.hit? before (x ++ s) = none → Barren p before x s)
    (hx' : p.hit? before' (x' ++ t) = none → Barren p before' x' t)
    (hc : ∀ a a', a <+: s → Corresponds r a a' → Corresponds r (x ++ a) (x' ++ a'))
    (ih : FirstMatches p (Corresponds r) Q (behind before x) (behind before' x') s t) :
    FirstMatches p (Corresponds r) Q before before' (x ++ s) (x' ++ t) := by
  have hrel := hQ h hab
  generalize hm : p.hit? before (x ++ s) = o, hm' : p.hit? before' (x' ++ t) = o' at hrel
  cases hrel with
  | none =>
    -- no match at the front: the search goes on behind the stretch on both sides
    exact .prepend (hx hm) (hx' hm') hc ih
  | some hq =>
    exact .some (List.nil_append _).symm (List.nil_append _).symm trivial trivial .nil hm hm' hq

/-- **First matches of corresponding texts** are at corresponding places. -/
theorem Follows.firstMatches (hQ : Follows r p Q) (hp : p ≠ .alwaysHeader)
    (h : Corresponds r s t) (hab : Abut before before' s) :
    FirstMatches p (Corresponds r) Q before before' s t := by
  induction h generalizing before before' with
  | nil => exact .none trivial trivial
  | @word w s t hw hs hr h ih =>
    have hw' := r.isRun_onWord hw
    exact hQ.stretch (.word hw hs hr h) hab (barren_word hp hw.all) (barren_word hp hw'.all)
      (fun a a' ha => .word_append hw hr hs ha) (ih (abut_word hw hw' hs))
  | @gap g g' s t hg hg' h ih =>
    exact hQ.stretch (.gap hg hg' h) hab (barren_gap hg.all) (barren_gap hg'.all)
      (fun a a' _ => .gap hg hg') (ih (abut_gap hg hg'))
  | @mark c s t hc h ih =>
    change FirstMatches p (Corresponds r) Q before before' ([c] ++ s) ([c] ++ t)
    exact hQ.stretch (.mark hc h) hab (fun hm => ⟨hm, trivial⟩) (fun hm => ⟨hm, trivial⟩)
      (fun a a' _ => .mark hc) (ih (abut_mark hc))

/-! ## Line feeds -/

/-- Stretches with as many line feeds. -/
def SameLines (a a' : List Char) : Prop :=
  a.count '\n' = a'.count '\n'

theorem SameLines.append {a a' b b' : List Char} (h : SameLines a a') (h' : SameLines b b') :
    SameLines (a ++ b) (a' ++ b') := by
  rw [SameLines, List.count_append, List.count_append, h, h']

theorem sameLines_run {q : Char → Bool} {w w' : List Char} (hw : IsRun q w) (hw' : IsRun q w')
    (hq : q '\n' = false) : SameLines w w' := by
  have none : ∀ {v}, IsRun q v → v.count '\n' = 0 := by
    intro v hv
    rw [List.count_eq_zero]
    intro hm
    rw [hv.all _ hm] at hq
    exact absurd hq (by decide)
  rw [SameLines, none hw, none hw']

theorem Corresponds.sameLines (h : Corresponds r s t) : SameLines s t := by
  induction h with
  | nil => rfl
  | word hw hs hr h ih => exact (sameLines_run hw (r.isRun_onWord hw) (by decide)).append ih
  | gap hg hg' h ih => exact (sameLines_run hg hg' (by decide)).append ih
  | @mark c s t hc h ih =>
    change SameLines ([c] ++ s) ([c] ++ t)
    exact SameLines.append rfl ih

/-! ## Headers behind `always` -/

/-- A stretch of a word before its last characters `k` is barren if a header behind the word does
not make any end of it a match. -/
theorem barren_alwaysHeader {x k : List Char} (hx : ∀ c ∈ x ++ k, isWord c = true)
    (hs : leadingWord s = [])
    (h : ∀ y, y ≠ [] → y <:+ x → y ++ k = "always".toList →
      listHit? inLineHeader (s.dropWhile isBlank) = none) :
    Barren .alwaysHeader before x (k ++ s) := by
  refine barren_of_isSuffix fun b y hy hsuffix => ?_
  have hrun : IsRun isWord (y ++ k) := by
    refine ⟨by simp [hy], fun c hc => hx c ?_⟩
    rcases List.mem_append.1 hc with hc | hc
    · exact List.mem_append_left k (hsuffix.subset hc)
    · exact List.mem_append_right x hc
  change alwaysHit? (y ++ (k ++ s)) = none
  rw [← List.append_assoc, alwaysHit?_run hrun hs]
  split
  · next he => rw [h y hy hsuffix he, Option.map_none]
  · rfl

theorem barren_alwaysHeader_word {w : List Char} (hw : IsRun isWord w) (hs : leadingWord s = [])
    (h : "always".toList <:+ w → listHit? inLineHeader (s.dropWhile isBlank) = none) :
    Barren .alwaysHeader before w s := by
  refine barren_alwaysHeader (k := []) (by simpa using hw.all) hs fun y _ hy he => h ?_
  rwa [← he, List.append_nil]

/-- A match that starts inside a word `x ++ "always"`, behind its stretch `x`. -/
theorem firstMatches_always {x : List Char} (hx : ∀ c ∈ x ++ "always".toList, isWord c = true)
    (hs : leadingWord s = []) (ht : leadingWord t = []) {m m' : Hit}
    (hm : listHit? inLineHeader (s.dropWhile isBlank) = some m)
    (hm' : listHit? inLineHeader (t.dropWhile isBlank) = some m') (hl : SameLists r m m') :
    FirstMatches .alwaysHeader SameLines (fun _ _ => SameLists r) before before'
      (x ++ ("always".toList ++ s)) (x ++ ("always".toList ++ t)) := by
  have hk : IsRun isWord "always".toList := by decide
  have hit : ∀ {b u n}, leadingWord u = [] → listHit? inLineHeader (u.dropWhile isBlank) = some n →
      Pattern.alwaysHeader.hit? b ("always".toList ++ u) =
        some ⟨"always".toList ++ u.takeWhile isBlank ++ n.text, n.groups⟩ := by
    intro b u n hu hn
    change alwaysHit? ("always".toList ++ u) = _
    rw [alwaysHit?_run hk hu, if_pos rfl, hn, Option.map_some]
  have barren : ∀ {b u}, leadingWord u = [] →
      Barren .alwaysHeader b x ("always".toList ++ u) := fun hu =>
    barren_alwaysHeader hx hu fun y hy _ he => absurd (List.append_left_eq_self.1 he) hy
  exact .some rfl rfl (barren hs) (barren ht) rfl (hit hs hm) (hit ht hm') hl

/-- **First matches behind `always`** in corresponding texts. -/
theorem firstMatches_alwaysHeader (h : Corresponds r s t) :
    FirstMatches .alwaysHeader SameLines (fun _ _ => SameLists r) before before' s t := by
  induction h generalizing before before' with
  | nil => exact .none trivial trivial
  | @word w s t hw hs hr h ih =>
    have hw' := r.isRun_onWord hw
    have ht : leadingWord t = [] := by rw [h.leadingWord_eq, hs, r.onWord_nil]
    have hlines := sameLines_run hw hw' (by decide)
    have hrel := (h.dropWhile uniform_isBlank).listHit?_rel uniform_inLineHeader
    generalize hm : listHit? inLineHeader (s.dropWhile isBlank) = o,
      hm' : listHit? inLineHeader (t.dropWhile isBlank) = o' at hrel
    -- a match in this word needs a header behind it and `always` at its end
    cases hrel with
    | none =>
      exact .prepend (barren_alwaysHeader_word hw hs fun _ => hm)
        (barren_alwaysHeader_word hw' ht fun _ => hm') (fun _ _ _ => hlines.append) ih
    | some hq =>
      by_cases hk : "always".toList <:+ w
      · -- the word is reserved, so it is the same on both sides
        rw [r.onWord_of_isReserved (.inr hk)]
        obtain ⟨x, rfl⟩ := hk
        rw [List.append_assoc, List.append_assoc]
        exact firstMatches_always hw.all hs ht hm hm' hq.2
      · exact .prepend (barren_alwaysHeader_word hw hs fun he => absurd he hk)
          (barren_alwaysHeader_word hw' ht fun he => absurd (r.always_isSuffix_of_onWord he) hk)
          (fun _ _ _ => hlines.append) ih
  | @gap g g' s t hg hg' h ih =>
    have barren : ∀ {g b u}, IsRun isGap g → Barren .alwaysHeader b g u := by
      intro g b u hg
      obtain ⟨c, g₁, rfl⟩ := List.exists_cons_of_ne_nil hg.ne_nil
      refine barren_gap hg.all (hit?_blank (p := .alwaysHeader) nofun ?_)
      exact isBlank_of_isGap (hg.all c (List.mem_cons_self ..))
    exact .prepend (barren hg) (barren hg')
      (fun _ _ _ => (sameLines_run hg hg' (by decide)).append) ih
  | @mark c s t hc h ih =>
    have none : ∀ {b u}, Pattern.alwaysHeader.hit? b (c :: u) = none := fun {b u} =>
      alwaysHit?_eq_none (s := c :: u) fun he =>
        ne_of_isWord (c := 'a') (by decide) hc (Option.some.inj he).symm
    change FirstMatches .alwaysHeader SameLines (fun _ _ => SameLists r) before before' ([c] ++ s)
      ([c] ++ t)
    exact .prepend ⟨none, trivial⟩ ⟨none, trivial⟩ (fun _ _ _ => SameLines.append rfl) ih

/-! ## Searches side by side -/

/-- What a match matches, without its place. -/
def Match.hit (m : Match) : Hit :=
  ⟨m.text, m.groups⟩

theorem group_eq_of_hit {m : Match} {part : List Char} (h : m.hit.groups = [part]) :
    m.group = part := by
  change m.groups = [part] at h
  rw [Match.group, h, List.headD_cons]

theorem hit?_nil : p.hit? before [] = none := by
  cases p with
  | word caseless choices => simp [Pattern.hit?, wordHit?, leadingWord]
  | identifier => simp [Pattern.hit?, wordHit?, leadingWord]
  | assignment => simp [Pattern.hit?, assignmentHit?, leadingWord, isIdentifier]
  | _ => rfl

theorem ne_nil_of_hit? {m : Hit} (h : p.hit? before s = some m) : s ≠ [] := by
  rintro rfl
  rw [hit?_nil] at h
  exact absurd h nofun

theorem search_append {a b : List Char} {m : Hit} (ha : Barren p none a b)
    (hm : p.hit? (behind none a) b = some m) : search p (a ++ b) = some (.ofHit a.length m) := by
  rw [search, searchFrom_append ha, searchFrom_hit (ne_nil_of_hit? hm) hm, Nat.zero_add]

theorem lineOf_append (a b : List Char) : lineOf (a ++ b) a.length = a.count '\n' + 1 := by
  rw [lineOf_natCast, List.take_left]

variable {R : Hit → Hit → Prop}

/-- **The first matches lie on the same line**, and what they match is related. -/
theorem FirstMatches.search_rel (hP : ∀ {a a'}, P a a' → SameLines a a')
    (h : FirstMatches p P (fun _ _ => R) .none .none s t) :
    Option.Rel (fun m m' => lineOf s m.start = lineOf t m'.start ∧ R m.hit m'.hit)
      (search p s) (search p t) := by
  cases h with
  | none hs ht =>
    rw [search, search, searchFrom_barren hs, searchFrom_barren ht]
    exact .none
  | some es et ha ha' hPa hm hm' hQ =>
    subst es et
    rw [search_append ha hm, search_append ha' hm']
    refine .some ⟨?_, hQ⟩
    rw [Match.ofHit, Match.ofHit, lineOf_append, lineOf_append, hP hPa]

theorem abut_none : Abut none none s :=
  ⟨rfl, rfl, fun h => absurd h (by decide)⟩

theorem Follows.search_rel (hQ : Follows r p fun _ _ => R) (hp : p ≠ .alwaysHeader)
    (h : Corresponds r s t) :
    Option.Rel (fun m m' => lineOf s m.start = lineOf t m'.start ∧ R m.hit m'.hit)
      (search p s) (search p t) :=
  (hQ.firstMatches hp h abut_none).search_rel Corresponds.sameLines

/-- A search for all matches, from corresponding places on. -/
theorem Follows.findFrom_rel (hQ : Follows r p fun s t m m' => GoesOn r s t m m' ∧ R m m')
    (hp : p ≠ .alwaysHeader) (position position' : Nat) (h : Corresponds r s t)
    (hab : Abut before before' s) :
    List.Forall₂ (fun m m' => R m.hit m'.hit) (findFrom p 0 before position s)
      (findFrom p 0 before' position' t) := by
  -- behind a match the search goes on with a shorter text
  induction hn : s.length using Nat.strongRecOn generalizing s t before before' position position'
    with
  | ind n ih =>
    cases hQ.firstMatches hp h hab with
    | none hs ht =>
      rw [findFrom_barren hs, findFrom_barren ht]
      exact .nil
    | @some a b a' b' m m' es et ha ha' _ hm hm' hR =>
      obtain ⟨⟨hne, hne', s', t', rfl, rfl, hrest, hab'⟩, hR⟩ := hR
      subst es et
      rw [findFrom_append ha, findFrom_append ha', findFrom_hit hne hm, findFrom_hit hne' hm']
      refine .cons hR (ih s'.length ?_ _ _ hrest (hab' _ _) rfl)
      have hlen : 0 < m.text.length := List.length_pos_iff.2 hne
      simp only [List.length_append] at hn
      omega

/-- **All matches** of a pattern in corresponding texts are related one by one. -/
theorem Follows.findAll_rel (hQ : Follows r p fun s t m m' => GoesOn r s t m m' ∧ R m m')
    (hp : p ≠ .alwaysHeader) (h : Corresponds r s t) :
    List.Forall₂ (fun m m' => R m.hit m'.hit) (findAll p s) (findAll p t) :=
  hQ.findFrom_rel hp 0 0 h abut_none

theorem Follows.cutFrom_rel (hQ : Follows r p (GoesOn r)) (hp : p ≠ .alwaysHeader)
    (h : Corresponds r s t) (hab : Abut before before' s) :
    List.Forall₂ (Corresponds r) (cutFrom p 0 before s) (cutFrom p 0 before' t) := by
  -- as for all matches, with the stretches before the matches as pieces
  induction hn : s.length using Nat.strongRecOn generalizing s t before before' with
  | ind n ih =>
    cases hQ.firstMatches hp h hab with
    | none hs ht =>
      rw [cutFrom_barren hs, cutFrom_barren ht]
      exact .cons h .nil
    | @some a b a' b' m m' es et ha ha' hc hm hm' hR =>
      obtain ⟨hne, hne', s', t', rfl, rfl, hrest, hab'⟩ := hR
      subst es et
      rw [cutFrom_append ha, cutFrom_append ha', cutFrom_hit hne hm, cutFrom_hit hne' hm',
        List.modifyHead_cons, List.modifyHead_cons, List.append_nil, List.append_nil]
      refine .cons hc (ih s'.length ?_ hrest (hab' _ _) rfl)
      have hlen : 0 < m.text.length := List.length_pos_iff.2 hne
      simp only [List.length_append] at hn
      omega

/-- **The pieces** of corresponding texts correspond one by one. -/
theorem Follows.cut_rel (hQ : Follows r p (GoesOn r)) (hp : p ≠ .alwaysHeader)
    (h : Corresponds r s t) : List.Forall₂ (Corresponds r) (cut p s) (cut p t) :=
  hQ.cutFrom_rel hp h abut_none

end HdlReview.Scan
