import HdlReview.Proofs.Scan.Names
import HdlReview.Proofs.Scan.Places

/-!
# Identifiers at their places

The identifiers of a source are its whole words that are identifiers, each once, in the order of the
places at which they first stand. Inside a whole word no other starts, so none is passed over.

## Main definitions

* `WordAt s w i rest`: the whole word `w` stands at the place `i`, and `rest` follows it
* `IdentifierAt s x i`: the whole word at the place `i` is the identifier `x`

## Main results

* `hitAt_wholeWord_iff`, `hitAt_identifier_iff`: what the patterns of a word and of identifiers match
* `inOrder_identifiers`, `mem_identifiers_iff`, `inOrder_orderedSignals`: the names that are listed
-/

namespace HdlReview.Scan

open HdlReview.Text

variable {p : Pattern} {before : Option Char} {i : Nat} {a b s w x rest : List Char} {h : Hit}

/-! ## Whole words -/

/-- **A whole word at a place**: a maximal run of word characters, with what follows it. -/
def WordAt (s w : List Char) (i : Nat) (rest : List Char) : Prop :=
  ∃ a, s = a ++ (w ++ rest) ∧ a.length = i ∧ IsRun isWord w ∧
    (∀ c, a.getLast? = some c → isWord c = false) ∧ ∀ c, rest.head? = some c → isWord c = false

/-- A whole word is the word from its place on, if no word goes on there. -/
theorem wordAt_iff :
    WordAt s w i rest ↔ ∃ a b, s = a ++ b ∧ a.length = i ∧
      insideWord (behind none a) = false ∧ w ≠ [] ∧ leadingWord b = w ∧
      b.dropWhile isWord = rest := by
  constructor
  · rintro ⟨a, rfl, rfl, hw, ha, hrest⟩
    have hlead : leadingWord (w ++ rest) = w := leadingWord_run hw (leadingWord_eq_nil_iff.2 hrest)
    refine ⟨a, w ++ rest, rfl, rfl, ?_, hw.ne_nil, hlead, ?_⟩
    · rw [behind_none_eq_getLast?, insideWord_eq_false_iff]
      exact ha
    · exact List.append_cancel_left (keyword_append_dropWhile hlead)
  · rintro ⟨a, b, rfl, rfl, ha, hne, rfl, rfl⟩
    rw [behind_none_eq_getLast?, insideWord_eq_false_iff] at ha
    refine ⟨a, ?_, rfl, ⟨hne, ?_⟩, ha, ?_⟩
    · rw [keyword_append_dropWhile rfl]
    · exact fun c hc => List.mem_takeWhile_imp hc
    · exact leadingWord_eq_nil_iff.1 (leadingWord_dropWhile_isWord b)

theorem wholeWord_iff_exists_wordAt : WholeWord s w ↔ ∃ i rest, WordAt s w i rest := by
  constructor
  · rintro ⟨a, b, rfl, hw, ha, hb⟩
    exact ⟨a.length, b, a, List.append_assoc .., rfl, hw, ha, hb⟩
  · rintro ⟨_, b, a, rfl, rfl, hw, ha, hb⟩
    exact ⟨a, b, (List.append_assoc ..).symm, hw, ha, hb⟩

/-- Behind a word character, the rest of its word is barren. -/
theorem barren_inside_word (hp : p ≠ .alwaysHeader) {c : Char} (hc : isWord c = true)
    (hw : ∀ d ∈ w, isWord d = true) : Barren p (some c) w s := by
  cases w with
  | nil => trivial
  | cons d w => exact barren_word hp hw (hit?_inside_word hp hc (hw d (List.mem_cons_self ..)))

theorem exposed_wordHit {accepts : List Char → Bool} (hp : p ≠ .alwaysHeader)
    (hhit : ∀ before s, p.hit? before s = wordHit? accepts before s) : p.Exposed := by
  intro before s h hh
  rw [hhit, wordHit?_eq_some_iff] at hh
  obtain ⟨-, hne, -, rfl⟩ := hh
  obtain ⟨c, w, hw⟩ := List.exists_cons_of_ne_nil hne
  have hall : ∀ d ∈ c :: w, isWord d = true := by
    rw [← hw]
    exact fun d hd => List.mem_takeWhile_imp hd
  refine ⟨c, w, s.dropWhile isWord, hw, (keyword_append_dropWhile hw).symm, ?_⟩
  exact barren_inside_word hp (hall c (List.mem_cons_self ..))
    fun d hd => hall d (List.mem_cons_of_mem c hd)

/-- **A pattern of whole words** matches just the whole words that it accepts. -/
theorem hitAt_wordHit_iff {accepts : List Char → Bool}
    (hhit : ∀ before s, p.hit? before s = wordHit? accepts before s) :
    HitAt p s i h ↔ ∃ w rest, h = ⟨w, []⟩ ∧ accepts w = true ∧ WordAt s w i rest := by
  constructor
  · rintro ⟨a, b, rfl, rfl, hh⟩
    rw [hhit] at hh
    obtain ⟨hin, hne, haccepts, rfl⟩ := wordHit?_eq_some_iff.1 hh
    exact ⟨_, _, rfl, haccepts, wordAt_iff.2 ⟨a, b, rfl, rfl, hin, hne, rfl, rfl⟩⟩
  · rintro ⟨w, rest, rfl, haccepts, hw⟩
    obtain ⟨a, b, rfl, rfl, hin, hne, rfl, -⟩ := wordAt_iff.1 hw
    refine ⟨a, b, rfl, rfl, ?_⟩
    rw [hhit]
    exact wordHit?_eq_some_iff.2 ⟨hin, hne, haccepts, rfl⟩

theorem hitAt_wholeWord_iff {w : String} :
    HitAt (.wholeWord w) s i h ↔ h = ⟨w.toList, []⟩ ∧ ∃ rest, WordAt s w.toList i rest := by
  rw [Pattern.wholeWord, hitAt_wordHit_iff fun _ _ => rfl]
  constructor
  · rintro ⟨v, rest, rfl, haccepts, hw⟩
    obtain rfl : v = w.toList := by simpa [isChoice] using haccepts
    exact ⟨rfl, rest, hw⟩
  · rintro ⟨rfl, rest, hw⟩
    exact ⟨w.toList, rest, rfl, by simp [isChoice], hw⟩

theorem exposed_identifier : Pattern.identifier.Exposed :=
  exposed_wordHit nofun fun _ _ => rfl

/-! ## Identifiers -/

/-- **An identifier at a place**: the whole word there is one. -/
def IdentifierAt (s x : List Char) (i : Nat) : Prop :=
  isIdentifier x = true ∧ ∃ rest, WordAt s x i rest

theorem hitAt_identifier_iff :
    HitAt .identifier s i h ↔ ∃ x, h = ⟨x, []⟩ ∧ IdentifierAt s x i := by
  rw [hitAt_wordHit_iff fun _ _ => rfl]
  constructor
  · rintro ⟨x, rest, rfl, hident, hw⟩
    exact ⟨x, rfl, hident, rest, hw⟩
  · rintro ⟨x, rfl, hident, rest, hw⟩
    exact ⟨x, rest, rfl, hident, hw⟩

theorem exists_mem_findAll_identifier_iff :
    (∃ m ∈ findAll .identifier s, m.text = x ∧ m.start = i) ↔ IdentifierAt s x i := by
  constructor
  · rintro ⟨m, hm, rfl, rfl⟩
    obtain ⟨x, he, hx⟩ := hitAt_identifier_iff.1 (hitAt_of_mem_findAll hm)
    rwa [show m.text = x from congrArg Hit.text he]
  · intro hx
    refine ⟨⟨i, x, []⟩, exposed_identifier.mem_findAll_iff.2 ?_, rfl, rfl⟩
    exact hitAt_identifier_iff.2 ⟨x, rfl, hx⟩

/-- **The identifiers of a source**, each once, in order of first appearance. -/
theorem inOrder_identifiers (s : List Char) : InOrder (IdentifierAt s) (identifiers s) :=
  (inOrder_eraseDups (pairwise_start_findAll _ s)).congr fun _ _ =>
    exists_mem_findAll_identifier_iff

/-- **The identifiers of a source** are its whole words in the form of an identifier. -/
theorem mem_identifiers_iff : x ∈ identifiers s ↔ isIdentifier x = true ∧ WholeWord s x := by
  rw [(inOrder_identifiers s).mem_iff, wholeWord_iff_exists_wordAt]
  exact exists_and_left

/-- **The signals of a source** are its identifiers that are not structural keywords. -/
theorem inOrder_orderedSignals (s : List Char) :
    InOrder (fun x i => IdentifierAt s x i ∧ x ∉ structuralKeywords) (orderedSignals s) := by
  refine ((inOrder_identifiers s).filter _).congr fun x i => ?_
  rw [Bool.not_eq_true', ← Bool.not_eq_true, List.contains_iff_mem]

end HdlReview.Scan
