import HdlReview.Proofs.Scan.Front
import HdlReview.Proofs.Scan.Stretch

/-!
# Whole words of a source

A whole word is a maximal run of word characters: no word character stands right before or right
behind it. A source contains a pattern just if the pattern matches at some place of it, and the
pattern of some words matches just the whole words that are among them. So whether a keyword is
found depends on the whole words only, wherever they stand.

## Main definitions

* `WholeWord s w`: the text `w` is a maximal run of word characters of `s`

## Main results

* `contains_iff_exists_hit`: a pattern that is contained matches at some place
* `contains_word_iff`: the pattern of some words, through the whole words of the source
* `wholeWord_map_iff`: the whole words of a source whose characters are changed within their class
-/

namespace HdlReview.Scan

open HdlReview.Text

/-! ## Patterns at a place -/

theorem isSome_searchFrom_iff {p : Pattern} {before : Option Char} {position : Nat}
    {s : List Char} :
    (searchFrom p before position s).isSome = true ↔
      ∃ a c b h, s = a ++ c :: b ∧ p.hit? (behind before a) (c :: b) = some h := by
  induction s generalizing before position with
  | nil => simp [searchFrom]
  | cons d s ih =>
    rw [searchFrom]
    cases hd : p.hit? before (d :: s) with
    | some h => simpa using ⟨[], d, s, rfl, h, hd⟩
    | none =>
      dsimp only
      rw [ih]
      constructor
      · rintro ⟨a, c, b, h, rfl, hh⟩
        exact ⟨d :: a, c, b, h, rfl, hh⟩
      · -- the place is not the front, where nothing is matched
        rintro ⟨a, c, b, h, he, hh⟩
        cases a with
        | nil =>
          obtain ⟨rfl, rfl⟩ := List.cons.inj he
          rw [behind_nil, hd] at hh
          cases hh
        | cons e a =>
          obtain ⟨rfl, rfl⟩ := List.cons.inj he
          exact ⟨a, c, b, h, rfl, hh⟩

/-- **A pattern is contained** in a source just if it matches at some place. -/
theorem contains_iff_exists_hit {p : Pattern} {s : List Char} :
    contains p s = true ↔
      ∃ a c b h, s = a ++ c :: b ∧ p.hit? (behind none a) (c :: b) = some h :=
  isSome_searchFrom_iff

theorem behind_none_eq_getLast? (a : List Char) : behind none a = a.getLast? := by
  induction a using List.reverseRecOn with
  | nil => rfl
  | append_singleton a c _ => rw [behind_append, List.getLast?_concat]; rfl

/-! ## Whole words -/

/-- **A whole word of a source**: a maximal run of word characters. -/
def WholeWord (s w : List Char) : Prop :=
  ∃ a b, s = a ++ w ++ b ∧ IsRun isWord w ∧
    (∀ c, a.getLast? = some c → isWord c = false) ∧ ∀ c, b.head? = some c → isWord c = false

theorem WholeWord.isRun {s w : List Char} (hword : WholeWord s w) : IsRun isWord w := by
  obtain ⟨a, b, -, hw, -⟩ := hword
  exact hw

/-- A whole word of a text is one of every source that has the text between two characters that are
in no word. -/
theorem WholeWord.between {list w : List Char} {c d : Char} (hword : WholeWord list w)
    (hc : isWord c = false) (hd : isWord d = false) (pre post : List Char) :
    WholeWord (pre ++ c :: (list ++ d :: post)) w := by
  obtain ⟨a, b, rfl, hw, ha, hb⟩ := hword
  refine ⟨pre ++ c :: a, b ++ d :: post, by simp, hw, ?_, ?_⟩
  · intro e he
    rw [List.getLast?_append_of_ne_nil pre (List.cons_ne_nil c a), List.getLast?_cons] at he
    obtain rfl := Option.some.inj he
    cases hlast : a.getLast? with
    | none => exact hc
    | some e => exact ha e hlast
  · intro e he
    cases b with
    | nil =>
      obtain rfl := Option.some.inj he
      exact hd
    | cons e' b => exact hb e he

theorem insideWord_eq_false_iff {before : Option Char} :
    insideWord before = false ↔ ∀ c, before = some c → isWord c = false := by
  cases before <;> simp [insideWord]

theorem leadingWord_eq_nil_iff {s : List Char} :
    leadingWord s = [] ↔ ∀ c, s.head? = some c → isWord c = false := by
  cases s with
  | nil => simp [leadingWord]
  | cons c s => cases hc : isWord c <;> simp [leadingWord, hc]

theorem wordHit?_eq_some_iff {accepts : List Char → Bool} {before : Option Char} {s : List Char}
    {h : Hit} :
    wordHit? accepts before s = some h ↔
      insideWord before = false ∧ leadingWord s ≠ [] ∧ accepts (leadingWord s) = true ∧
        h = ⟨leadingWord s, []⟩ := by
  rw [wordHit?]
  simp only [Option.ite_none_right_eq_some, Bool.and_eq_true, Bool.not_eq_true', bne_iff_ne,
    Option.some.injEq, and_assoc, eq_comm (a := h)]

/-- **The pattern of some words** is contained in a source just if one of its whole words is among
them. -/
theorem contains_word_iff {caseless : Bool} {choices : List (List Char)} {s : List Char} :
    contains (.word caseless choices) s = true ↔
      ∃ w, WholeWord s w ∧ isChoice caseless choices w = true := by
  rw [contains_iff_exists_hit]
  constructor
  · -- what is matched at a place is the word from there on, which ends where its characters end
    rintro ⟨a, c, b, h, rfl, hh⟩
    obtain ⟨hin, hne, hw, -⟩ := wordHit?_eq_some_iff.1 hh
    rw [insideWord_eq_false_iff, behind_none_eq_getLast?] at hin
    refine ⟨leadingWord (c :: b), ⟨a, (c :: b).dropWhile isWord, ?_, ⟨hne, ?_⟩, hin, ?_⟩, hw⟩
    · rw [List.append_assoc, leadingWord, List.takeWhile_append_dropWhile]
    · exact fun d hd => List.mem_takeWhile_imp hd
    · exact leadingWord_eq_nil_iff.1 (leadingWord_dropWhile_isWord _)
  · -- no word goes on before a whole word or behind it, so it is matched where it starts
    rintro ⟨w, ⟨a, b, rfl, hrun, ha, hb⟩, hw⟩
    obtain ⟨c, w', rfl⟩ := List.exists_cons_of_ne_nil hrun.ne_nil
    have hlead : leadingWord (c :: w' ++ b) = c :: w' :=
      leadingWord_run hrun (leadingWord_eq_nil_iff.2 hb)
    refine ⟨a, c, w' ++ b, ⟨c :: w', []⟩, by simp, ?_⟩
    rw [behind_none_eq_getLast?]
    refine wordHit?_eq_some_iff.2 ⟨insideWord_eq_false_iff.2 ha, ?_⟩
    rw [← List.cons_append, hlead]
    exact ⟨hrun.ne_nil, hw, rfl⟩

/-- Changing characters within their class changes the whole words in the same way. -/
theorem wholeWord_map_iff {f : Char → Char} (hf : ∀ c, isWord (f c) = isWord c)
    {s v : List Char} : WholeWord (s.map f) v ↔ ∃ w, WholeWord s w ∧ v = w.map f := by
  have hrun : ∀ w, IsRun isWord (w.map f) ↔ IsRun isWord w := fun w => by
    rw [isRun_iff, isRun_iff, ne_eq, List.map_eq_nil_iff, List.all_map]
    simp only [Function.comp_def, hf]
  have hlast : ∀ a : List Char, (∀ c, (a.map f).getLast? = some c → isWord c = false) ↔
      ∀ c, a.getLast? = some c → isWord c = false := fun a => by
    cases ha : a.getLast? <;> simp [ha, hf]
  have hhead : ∀ b : List Char, (∀ c, (b.map f).head? = some c → isWord c = false) ↔
      ∀ c, b.head? = some c → isWord c = false := fun b => by
    cases hb : b.head? <;> simp [hb, hf]
  constructor
  · rintro ⟨_, _, he, hw, ha, hb⟩
    obtain ⟨aw, b, rfl, haw, rfl⟩ := List.map_eq_append_iff.1 he
    obtain ⟨a, w, rfl, rfl, rfl⟩ := List.map_eq_append_iff.1 haw
    exact ⟨w, ⟨a, b, rfl, (hrun w).1 hw, (hlast a).1 ha, (hhead b).1 hb⟩, rfl⟩
  · rintro ⟨w, ⟨a, b, rfl, hw, ha, hb⟩, rfl⟩
    exact ⟨a.map f, b.map f, by simp, (hrun w).2 hw, (hlast a).2 ha, (hhead b).2 hb⟩

end HdlReview.Scan
