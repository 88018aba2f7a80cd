import HdlReview.Proofs.Scan.Front
import Mathlib.Logic.Equiv.Basic

/-!
# Renaming identifiers

A renaming maps identifiers to identifiers, different ones to different ones, and leaves alone the
words that the rules look for: the reserved words and the identifiers that end in `always`, which
may open a header. Being injective it maps no other identifier to one of these.

A renaming acts on every word of a source; words that are no identifiers stay as they are.

## Main definitions

* `IsReserved w`: `w` is a reserved word or ends in `always`
* `Renaming`: a renaming; `Renaming.identity` and `Renaming.swap` are the first ones
* `Renaming.onWord r w`, `Renaming.onSource r s`: a renamed word, a renamed source

## Main results

* `Renaming.onWord_injective`, `Renaming.isIdentifier_onWord`, `Renaming.onWord_eq_iff`
-/

namespace HdlReview.Scan

open HdlReview.Text

/-- The words that the rules for hardware modules know. -/
def reservedWords : List (List Char) :=
  ["if".toList, "else".toList, "case".toList, "casex".toList, "casez".toList, "default".toList,
    "posedge".toList, "negedge".toList, "or".toList, "always".toList, "begin".toList, "end".toList,
    "module".toList, "endmodule".toList]

/-- A reserved word, or a word that ends in `always`. -/
def IsReserved (w : List Char) : Prop :=
  w ∈ reservedWords ∨ "always".toList <:+ w

instance (w : List Char) : Decidable (IsReserved w) :=
  inferInstanceAs (Decidable (_ ∨ _))

/-- An injective renaming of identifiers that keeps the reserved ones. -/
structure Renaming where
  rename : List Char → List Char
  isIdentifier_rename : ∀ w, isIdentifier w = true → isIdentifier (rename w) = true
  injective : ∀ v w, isIdentifier v = true → isIdentifier w = true → rename v = rename w → v = w
  reserved : ∀ w, isIdentifier w = true → IsReserved w → rename w = w

namespace Renaming

/-- The renaming that changes nothing. -/
def identity : Renaming where
  rename := id
  isIdentifier_rename _ h := h
  injective _ _ _ _ h := h
  reserved _ _ _ := rfl

/-- The renaming that exchanges two identifiers. -/
def swap (a b : List Char) (ha : isIdentifier a = true) (hb : isIdentifier b = true)
    (ha' : ¬ IsReserved a) (hb' : ¬ IsReserved b) : Renaming where
  rename := Equiv.swap a b
  isIdentifier_rename w hw := by
    rw [Equiv.swap_apply_def]
    split
    · exact hb
    · split
      · exact ha
      · exact hw
  injective _ _ _ _ h := (Equiv.swap a b).injective h
  reserved w _ hw := by
    refine Equiv.swap_apply_of_ne_of_ne ?_ ?_
    · rintro rfl
      exact ha' hw
    · rintro rfl
      exact hb' hw

/-- A word after the renaming: itself unless it is an identifier. -/
def onWord (r : Renaming) (w : List Char) : List Char :=
  if isIdentifier w then r.rename w else w

/-- The rest of a source after the renaming, `w` being what the word under way has so far. -/
def onRest (r : Renaming) (w : List Char) : List Char → List Char
  | [] => r.onWord w
  | c :: s => if isWord c then onRest r (w ++ [c]) s else r.onWord w ++ c :: onRest r [] s

/-- **A source after the renaming**: each of its words is renamed. -/
def onSource (r : Renaming) (s : List Char) : List Char :=
  r.onRest [] s

variable (r : Renaming)

theorem onWord_of_isIdentifier {w : List Char} (h : isIdentifier w = true) :
    r.onWord w = r.rename w :=
  if_pos h

theorem onWord_of_not {w : List Char} (h : isIdentifier w = false) : r.onWord w = w :=
  if_neg (by simp [h])

@[simp] theorem onWord_nil : r.onWord [] = [] :=
  r.onWord_of_not rfl

@[simp] theorem onWord_identity (w : List Char) : identity.onWord w = w :=
  ite_self w

/-- A renaming keeps apart identifiers and other words. -/
@[simp] theorem isIdentifier_onWord (w : List Char) :
    isIdentifier (r.onWord w) = isIdentifier w := by
  cases h : isIdentifier w with
  | true => rw [r.onWord_of_isIdentifier h, r.isIdentifier_rename w h]
  | false => rw [r.onWord_of_not h, h]

theorem onWord_injective : Function.Injective r.onWord := by
  intro v w h
  -- either both words are identifiers or both are kept as they are
  have hvw : isIdentifier v = isIdentifier w := by
    rw [← r.isIdentifier_onWord v, h, r.isIdentifier_onWord]
  cases hv : isIdentifier v with
  | true =>
    rw [hv] at hvw
    rw [r.onWord_of_isIdentifier hv, r.onWord_of_isIdentifier hvw.symm] at h
    exact r.injective v w hv hvw.symm h
  | false =>
    rw [hv] at hvw
    rwa [r.onWord_of_not hv, r.onWord_of_not hvw.symm] at h

theorem onWord_of_isReserved {w : List Char} (h : IsReserved w) : r.onWord w = w := by
  cases hw : isIdentifier w with
  | true => rw [r.onWord_of_isIdentifier hw, r.reserved w hw h]
  | false => exact r.onWord_of_not hw

theorem always_isSuffix_of_onWord {w : List Char} (h : "always".toList <:+ r.onWord w) :
    "always".toList <:+ w := by
  rwa [r.onWord_injective (r.onWord_of_isReserved (.inr h))] at h

theorem onWord_eq_iff {k w : List Char} (hk : k ∈ reservedWords) : r.onWord w = k ↔ w = k := by
  have h : r.onWord k = k := r.onWord_of_isReserved (.inl hk)
  constructor
  · intro hw
    exact r.onWord_injective (hw.trans h.symm)
  · rintro rfl
    exact h

theorem onWord_mem_iff {l : List (List Char)} {w : List Char} (hl : ∀ k ∈ l, k ∈ reservedWords) :
    r.onWord w ∈ l ↔ w ∈ l := by
  constructor
  · intro h
    rwa [r.onWord_injective (r.onWord_of_isReserved (.inl (hl _ h)))] at h
  · intro h
    rwa [r.onWord_of_isReserved (.inl (hl _ h))]

theorem onWord_eq_nil_iff {w : List Char} : r.onWord w = [] ↔ w = [] := by
  constructor
  · intro h
    exact r.onWord_injective (h.trans r.onWord_nil.symm)
  · rintro rfl
    exact r.onWord_nil

theorem isRun_onWord {w : List Char} (h : IsRun isWord w) : IsRun isWord (r.onWord w) := by
  refine ⟨fun he => h.ne_nil (r.onWord_eq_nil_iff.1 he), ?_⟩
  cases hw : isIdentifier w with
  | true =>
    intro c hc
    rw [r.onWord_of_isIdentifier hw] at hc
    exact isWord_of_isIdentRest (isIdentRest_of_isIdentifier (r.isIdentifier_rename w hw) c hc)
  | false =>
    rw [r.onWord_of_not hw]
    exact h.all

end Renaming

end HdlReview.Scan
