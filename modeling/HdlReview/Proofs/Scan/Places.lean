import HdlReview.Proofs.Scan.FirstAppearance
import HdlReview.Proofs.Scan.Simulation
import HdlReview.Proofs.Scan.Words

/-!
# Matches and places

A search goes from left to right; what it finds can be said without it, through the places at which
a pattern matches. The first match is the one at the least such place. The search for all matches
goes on behind each match, so that a place is passed over only if it lies inside a match. Of a
pattern that never matches inside one of its own matches, it finds the matches at all places.

## Main definitions

* `HitAt p s i h`: the pattern `p` matches at the place `i` of the source `s`
* `Pattern.Exposed p`: inside a match of `p` no other match starts
* `CapturedAt p s i x`: the pattern `p` matches at a place and captures the part `x`

## Main results

* `search_eq_some_iff`, `search_eq_none_iff`: the first match is at the least place
* `pairwise_start_findAll`: the matches that are found are in order
* `hitAt_of_mem_findAll`, `mem_or_inside_of_hitAt`: they are at places, and cover all places
* `Pattern.Exposed.mem_findAll_iff`: all matches of an exposed pattern are found
* `Pattern.Captures.search_iff`, `Pattern.Captures.findAll_iff`: the same for captured parts
-/

namespace HdlReview.Scan

open HdlReview.Text

variable {p : Pattern} {before : Option Char} {position skip i j : Nat} {a b s : List Char}
  {h h' : Hit} {m : Match}

/-- **A pattern matches at a place** of a source. -/
def HitAt (p : Pattern) (s : List Char) (i : Nat) (h : Hit) : Prop :=
  ∃ a b, s = a ++ b ∧ a.length = i ∧ p.hit? (behind none a) b = some h

theorem HitAt.unique (hh : HitAt p s i h) (hh' : HitAt p s i h') : h = h' := by
  obtain ⟨a, b, rfl, rfl, hh⟩ := hh
  obtain ⟨a', b', he, hlen, hh'⟩ := hh'
  obtain ⟨rfl, rfl⟩ := List.append_inj he hlen.symm
  exact Option.some.inj (hh.symm.trans hh')

theorem hitAt_iff : HitAt p s i h ↔ p.hit? (behind none (s.take i)) (s.drop i) = some h := by
  constructor
  · rintro ⟨a, b, rfl, rfl, hh⟩
    rwa [List.take_left, List.drop_left]
  · intro hh
    refine ⟨s.take i, s.drop i, (List.take_append_drop i s).symm, ?_, hh⟩
    -- a match takes characters, so the place is not behind the end
    have hlt : i < s.length := List.length_lt_of_drop_ne_nil (ne_nil_of_hit? hh)
    rw [List.length_take, Nat.min_eq_left (Nat.le_of_lt hlt)]

/-! ## The first match -/

/-- In a barren stretch nothing is matched, at whatever place. -/
theorem Barren.hit?_eq_none {c : Char} (hbarren : Barren p before (a ++ c :: b) s) :
    p.hit? (behind before a) (c :: b ++ s) = none := by
  induction a generalizing before with
  | nil => exact hbarren.1
  | cons d a ih => exact ih hbarren.2

/-- A text is barren, or it has a first match behind a barren stretch. -/
theorem barren_or_exists_first (p : Pattern) (before : Option Char) (s : List Char) :
    Barren p before s [] ∨
      ∃ a b h, s = a ++ b ∧ Barren p before a b ∧ p.hit? (behind before a) b = some h := by
  induction s generalizing before with
  | nil => exact .inl trivial
  | cons c s ih =>
    cases hc : p.hit? before (c :: s) with
    | some h => exact .inr ⟨[], c :: s, h, rfl, trivial, hc⟩
    | none =>
      rcases ih (some c) with hs | ⟨a, b, h, rfl, ha, hh⟩
      · exact .inl ⟨by rwa [List.append_nil], hs⟩
      · exact .inr ⟨c :: a, b, h, rfl, ⟨hc, ha⟩, hh⟩

/-- Before the place of a match behind a barren stretch nothing is matched. -/
theorem Barren.le_of_hitAt (hbarren : Barren p none a b) (hh : HitAt p (a ++ b) j h) :
    a.length ≤ j := by
  obtain ⟨x, y, he, rfl, hh⟩ := hh
  rw [List.append_eq_append_iff] at he
  rcases he with ⟨z, rfl, rfl⟩ | ⟨z, rfl, rfl⟩
  · simp
  · cases z with
    | nil => simp
    | cons c z =>
      rw [hbarren.hit?_eq_none] at hh
      cases hh

/-- **There is no first match** just if nothing is matched at any place. -/
theorem search_eq_none_iff : search p s = none ↔ ∀ i h, ¬ HitAt p s i h := by
  rcases barren_or_exists_first p none s with hs | ⟨a, b, h, rfl, ha, hh⟩
  · refine iff_of_true (searchFrom_barren hs 0) ?_
    rintro _ h ⟨a, b, rfl, rfl, hh⟩
    obtain ⟨c, b, rfl⟩ := List.exists_cons_of_ne_nil (ne_nil_of_hit? hh)
    have hnone := hs.hit?_eq_none
    rw [List.append_nil, hh] at hnone
    cases hnone
  · refine iff_of_false ?_ fun hnone => hnone a.length h ⟨a, b, rfl, rfl, hh⟩
    rw [search_append ha hh]
    simp

/-- **The first match** is the one at the least place. -/
theorem search_eq_some_iff :
    search p s = some m ↔ HitAt p s m.start m.hit ∧ ∀ j h, HitAt p s j h → m.start ≤ j := by
  rcases barren_or_exists_first p none s with hs | ⟨a, b, h, rfl, ha, hh⟩
  · have hnone : search p s = none := searchFrom_barren hs 0
    rw [hnone]
    refine iff_of_false nofun fun hm => ?_
    exact search_eq_none_iff.1 hnone _ _ hm.1
  · have hfirst : HitAt p (a ++ b) a.length h := ⟨a, b, rfl, rfl, hh⟩
    rw [search_append ha hh, Option.some.injEq]
    constructor
    · rintro rfl
      exact ⟨hfirst, fun j h' => ha.le_of_hitAt⟩
    · rintro ⟨hm, hleast⟩
      -- both are least places, and a place has one match
      have hstart : m.start = a.length :=
        Nat.le_antisymm (hleast _ _ hfirst) (ha.le_of_hitAt hm)
      rw [hstart] at hm
      obtain ⟨start, text, groups⟩ := m
      obtain rfl := hm.unique hfirst
      dsimp only at hstart
      rw [hstart]
      rfl

/-! ## All matches -/

/-- Nothing is found among the characters that are skipped. -/
theorem add_skip_le_start_of_mem_findFrom (hm : m ∈ findFrom p skip before position s) :
    position + skip ≤ m.start := by
  fun_induction findFrom p skip before position s with
  | case1 => simp at hm
  | case2 skip before position c s ih =>
    have hle := ih hm
    omega
  | case3 before position c s h hh ih =>
    rcases List.mem_cons.1 hm with rfl | hm
    · exact Nat.le_refl position
    · have hle := ih hm
      omega
  | case4 before position c s hnone ih => exact Nat.le_of_succ_le (ih hm)

theorem pairwise_start_findFrom :
    (findFrom p skip before position s).Pairwise fun m m' => m.start < m'.start := by
  fun_induction findFrom p skip before position s with
  | case1 => exact .nil
  | case2 skip before position c s ih => exact ih
  | case3 before position c s h hh ih =>
    refine .cons ?_ ih
    intro m' hm'
    exact Nat.le_trans (Nat.le_add_right ..) (add_skip_le_start_of_mem_findFrom hm')
  | case4 before position c s hnone ih => exact ih

/-- **The matches that are found** are in order of their places. -/
theorem pairwise_start_findAll (p : Pattern) (s : List Char) :
    (findAll p s).Pairwise fun m m' => m.start < m'.start :=
  pairwise_start_findFrom

/-- A match at a place of a text that starts at a position. -/
def LiesIn (p : Pattern) (before : Option Char) (position : Nat) (s : List Char) (m : Match) :
    Prop :=
  ∃ a b, s = a ++ b ∧ m.start = position + a.length ∧ p.hit? (behind before a) b = some m.hit

theorem LiesIn.cons {c : Char} (hm : LiesIn p (some c) (position + 1) s m) :
    LiesIn p before position (c :: s) m := by
  obtain ⟨a, b, rfl, hstart, hh⟩ := hm
  refine ⟨c :: a, b, rfl, ?_, hh⟩
  rw [hstart, List.length_cons, Nat.add_assoc, Nat.add_comm 1]

theorem liesIn_of_mem_findFrom (hm : m ∈ findFrom p skip before position s) :
    LiesIn p before position s m := by
  fun_induction findFrom p skip before position s with
  | case1 => simp at hm
  | case2 skip before position c s ih => exact (ih hm).cons
  | case3 before position c s h hh ih =>
    rcases List.mem_cons.1 hm with rfl | hm
    · exact ⟨[], c :: s, rfl, rfl, hh⟩
    · exact (ih hm).cons
  | case4 before position c s hnone ih => exact (ih hm).cons

/-- **Every match that is found** is at a place. -/
theorem hitAt_of_mem_findAll (hm : m ∈ findAll p s) : HitAt p s m.start m.hit := by
  obtain ⟨a, b, rfl, hstart, hh⟩ := liesIn_of_mem_findFrom hm
  rw [Nat.zero_add] at hstart
  exact ⟨a, b, rfl, hstart.symm, hh⟩

theorem mem_or_inside_of_hit? (hskip : skip ≤ a.length)
    (hh : p.hit? (behind before a) b = some h) :
    .ofHit (position + a.length) h ∈ findFrom p skip before position (a ++ b) ∨
      ∃ m ∈ findFrom p skip before position (a ++ b),
        m.start < position + a.length ∧ position + a.length < m.stop := by
  generalize hs : a ++ b = s
  fun_induction findFrom p skip before position s generalizing a with
  | case1 =>
    obtain ⟨rfl, rfl⟩ := List.append_eq_nil_iff.1 hs
    exact absurd rfl (ne_nil_of_hit? hh)
  | case2 skip before position c s ih =>
    obtain ⟨d, a, rfl⟩ := List.exists_cons_of_length_pos (Nat.zero_lt_of_lt hskip)
    obtain ⟨rfl, rfl⟩ := List.cons.inj hs
    have hplace := ih (Nat.le_of_succ_le_succ hskip) hh rfl
    rwa [Nat.add_assoc, Nat.add_comm 1, ← List.length_cons (a := d)] at hplace
  | case3 before position c s h₁ hh₁ ih =>
    cases a with
    | nil =>
      -- the place is the front, where the search has its match
      rw [List.nil_append] at hs
      subst hs
      obtain rfl := Option.some.inj (hh₁.symm.trans hh)
      exact .inl (List.mem_cons_self ..)
    | cons d a =>
      obtain ⟨rfl, rfl⟩ := List.cons.inj hs
      by_cases hinside : h₁.text.length - 1 ≤ a.length
      · have hplace := ih hinside hh rfl
        rw [Nat.add_assoc, Nat.add_comm 1, ← List.length_cons (a := d)] at hplace
        rcases hplace with hm | ⟨m, hm, hlt⟩
        · exact .inl (List.mem_cons_of_mem _ hm)
        · exact .inr ⟨m, List.mem_cons_of_mem _ hm, hlt⟩
      · refine .inr ⟨_, List.mem_cons_self .., ?_⟩
        simp only [Match.stop, Match.ofHit, List.length_cons]
        omega
  | case4 before position c s hnone ih =>
    cases a with
    | nil =>
      rw [List.nil_append] at hs
      subst hs
      cases hnone.symm.trans hh
    | cons d a =>
      obtain ⟨rfl, rfl⟩ := List.cons.inj hs
      have hplace := ih (Nat.zero_le _) hh rfl
      rwa [Nat.add_assoc, Nat.add_comm 1, ← List.length_cons (a := d)] at hplace

/-- **Every place is covered**: its match is found, or it lies inside one that is found. -/
theorem mem_or_inside_of_hitAt (hh : HitAt p s i h) :
    .ofHit i h ∈ findAll p s ∨ ∃ m ∈ findAll p s, m.start < i ∧ i < m.stop := by
  obtain ⟨a, b, rfl, rfl, hh⟩ := hh
  have hplace : .ofHit (0 + a.length) h ∈ findAll p (a ++ b) ∨
      ∃ m ∈ findAll p (a ++ b), m.start < 0 + a.length ∧ 0 + a.length < m.stop :=
    mem_or_inside_of_hit? (Nat.zero_le a.length) hh
  rwa [Nat.zero_add] at hplace

/-! ## Exposed patterns -/

/-- **Inside a match no other match starts**: behind its first character, a match is barren. -/
def Pattern.Exposed (p : Pattern) : Prop :=
  ∀ ⦃before s h⦄, p.hit? before s = some h →
    ∃ c text rest, h.text = c :: text ∧ s = c :: text ++ rest ∧ Barren p (some c) text rest

/-- A place inside a stretch cuts it in two. -/
theorem exists_cut_of_inside {t r x y : List Char} (he : a ++ (t ++ r) = x ++ y)
    (hlt : a.length < x.length) (hstop : x.length < a.length + t.length) :
    ∃ c u d v, t = c :: u ++ d :: v ∧ x = a ++ c :: u ∧ y = d :: v ++ r := by
  have ha : a <+: x ++ y := ⟨t ++ r, he⟩
  obtain ⟨u, rfl⟩ : a <+: x :=
    List.prefix_of_prefix_length_le ha (List.prefix_append x y) (Nat.le_of_lt hlt)
  simp only [List.length_append] at hlt hstop
  rw [List.append_assoc, List.append_cancel_left_eq] at he
  have ht : t <+: u ++ y := ⟨r, he⟩
  obtain ⟨v, rfl⟩ : u <+: t :=
    List.prefix_of_prefix_length_le (List.prefix_append u y) ht (by omega)
  rw [List.append_assoc, List.append_cancel_left_eq] at he
  rw [List.length_append] at hstop
  obtain ⟨c, u, rfl⟩ := List.exists_cons_of_length_pos (show 0 < u.length by omega)
  obtain ⟨d, v, rfl⟩ := List.exists_cons_of_length_pos (show 0 < v.length by omega)
  exact ⟨c, u, d, v, rfl, rfl, he.symm⟩

/-- **All matches of an exposed pattern** are found, wherever they are. -/
theorem Pattern.Exposed.mem_findAll_iff (hp : p.Exposed) :
    m ∈ findAll p s ↔ HitAt p s m.start m.hit := by
  refine ⟨hitAt_of_mem_findAll, fun hm => ?_⟩
  rcases mem_or_inside_of_hitAt hm with hfound | ⟨m', hm', hlt, hstop⟩
  · exact hfound
  · -- the place would lie in the barren part of another match
    obtain ⟨a, b, rfl, hstart, hh⟩ := hitAt_of_mem_findAll hm'
    obtain ⟨x, y, he, hx, hh'⟩ := hm
    obtain ⟨c, text, rest, htext, rfl, hbarren⟩ := hp hh
    rw [Match.stop, show m'.text = c :: text from htext] at hstop
    rw [← hstart] at hlt hstop
    rw [← hx] at hlt hstop
    obtain ⟨c', u, d, v, hcut, rfl, rfl⟩ := exists_cut_of_inside he hlt hstop
    obtain ⟨rfl, rfl⟩ := List.cons.inj hcut
    rw [behind_append, behind_cons, hbarren.hit?_eq_none] at hh'
    cases hh'

/-! ## Captured parts -/

/-- Every match of the pattern captures one part. -/
def Pattern.Captures (p : Pattern) : Prop :=
  ∀ ⦃before s h⦄, p.hit? before s = some h → ∃ x, h.groups = [x]

/-- **A part captured at a place**. -/
def CapturedAt (p : Pattern) (s : List Char) (i : Nat) (x : List Char) : Prop :=
  ∃ text, HitAt p s i ⟨text, [x]⟩

theorem eq_of_hit_eq {text text' x x' : List Char} (he : Hit.mk text [x] = Hit.mk text' [x']) :
    x = x' :=
  (List.cons.inj (congrArg Hit.groups he)).1

namespace Pattern.Captures

variable {x : List Char}

/-- A match at a place captures a part there. -/
theorem capturedAt_group (hp : p.Captures) (hm : HitAt p s m.start m.hit) :
    CapturedAt p s m.start m.group := by
  obtain ⟨a, b, hs, hlen, hh⟩ := hm
  obtain ⟨x, hx⟩ := hp hh
  rw [group_eq_of_hit hx]
  refine ⟨m.text, a, b, hs, hlen, ?_⟩
  rw [hh, ← hx]
  rfl

theorem exists_capturedAt (hp : p.Captures) (hh : HitAt p s i h) : ∃ x, CapturedAt p s i x :=
  ⟨_, hp.capturedAt_group (m := .ofHit i h) hh⟩

theorem search_eq_none (hp : p.Captures) :
    search p s = none ↔ ∀ i x, ¬ CapturedAt p s i x := by
  rw [search_eq_none_iff]
  constructor
  · rintro hnone i x ⟨text, hh⟩
    exact hnone i _ hh
  · intro hnone i h hh
    obtain ⟨x, hx⟩ := hp.exists_capturedAt hh
    exact hnone i x hx

/-- **The part that the first match captures** is the one at the least place. -/
theorem search_iff (hp : p.Captures) :
    (∃ m, search p s = some m ∧ m.group = x ∧ m.start = i) ↔
      CapturedAt p s i x ∧ ∀ j y, CapturedAt p s j y → i ≤ j := by
  constructor
  · rintro ⟨m, hm, rfl, rfl⟩
    obtain ⟨hm, hleast⟩ := search_eq_some_iff.1 hm
    refine ⟨hp.capturedAt_group hm, ?_⟩
    rintro j y ⟨text, hh⟩
    exact hleast j _ hh
  · rintro ⟨⟨text, hh⟩, hleast⟩
    refine ⟨⟨i, text, [x]⟩, search_eq_some_iff.2 ⟨hh, ?_⟩, rfl, rfl⟩
    intro j h hj
    obtain ⟨y, hy⟩ := hp.exists_capturedAt hj
    exact hleast j y hy

/-- **The parts that all matches capture** are those at all places, for an exposed pattern. -/
theorem findAll_iff (hp : p.Captures) (hexposed : p.Exposed) :
    (∃ m ∈ findAll p s, m.group = x ∧ m.start = i) ↔ CapturedAt p s i x := by
  constructor
  · rintro ⟨m, hm, rfl, rfl⟩
    exact hp.capturedAt_group (hitAt_of_mem_findAll hm)
  · rintro ⟨text, hh⟩
    exact ⟨⟨i, text, [x]⟩, hexposed.mem_findAll_iff.2 hh, rfl, rfl⟩

end Pattern.Captures

end HdlReview.Scan
