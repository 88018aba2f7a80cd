import HdlReview.Proofs.Scan.Correspondence

/-!
# Renamed and respaced sources

Two ways to change a source that lead to a corresponding one. Renaming the identifiers of an ASCII
source changes whole words only; in other sources the word of a name may go on with letters that no
identifier holds. Writing gaps anew changes the blanks between words and marks, but it neither adds
nor removes a gap, and it keeps the line feeds.

## Main definitions

* `Respaced s t`: `t` is `s` with gaps replaced by gaps

## Main results

* `corresponds_onSource`: a renamed source corresponds to the source
* `Respaced.corresponds`: so does a respaced one
-/

namespace HdlReview.Scan

open HdlReview.Text

variable {r : Renaming} {w s t : List Char}

/-- **Gaps written anew.** Any number of gaps are replaced, each by another one that is not empty;
all other characters are kept. -/
inductive Respaced : List Char → List Char → Prop
  | nil : Respaced [] []
  | keep {c : Char} {s t : List Char} (hc : isGap c = false) (h : Respaced s t) :
      Respaced (c :: s) (c :: t)
  | gap {g g' s t : List Char} (hg : IsRun isGap g) (hg' : IsRun isGap g') (h : Respaced s t) :
      Respaced (g ++ s) (g' ++ t)

/-- A word in front of corresponding texts, which may be empty. -/
theorem Corresponds.append_word (hw : ∀ c ∈ w, isWord c = true) (hs : leadingWord s = [])
    (hr : (r.onWord w).takeWhile isIdentRest = r.onWord (w.takeWhile isIdentRest))
    (h : Corresponds r s t) : Corresponds r (w ++ s) (r.onWord w ++ t) := by
  by_cases hn : w = []
  · subst hn
    rwa [r.onWord_nil]
  · exact .word ⟨hn, hw⟩ hs hr h

theorem Corresponds.cons_of_not_isWord {c : Char} (hc : isWord c = false)
    (h : Corresponds r s t) : Corresponds r (c :: s) (c :: t) := by
  cases hg : isGap c with
  | true =>
    have hrun : IsRun isGap [c] := ⟨nofun, by simpa using hg⟩
    exact .gap hrun hrun h
  | false => exact .mark (by simp [isMark, hc, hg]) h

/-! ## Renamed sources -/

/-- A word of identifier characters is renamed as a whole. -/
theorem takeWhile_isIdentRest_onWord (hw : ∀ c ∈ w, isIdentRest c = true) :
    (r.onWord w).takeWhile isIdentRest = r.onWord (w.takeWhile isIdentRest) := by
  have hr : ∀ c ∈ r.onWord w, isIdentRest c = true := by
    cases hi : isIdentifier w with
    | true =>
      rw [r.onWord_of_isIdentifier hi]
      exact isIdentRest_of_isIdentifier (r.isIdentifier_rename w hi)
    | false => rwa [r.onWord_of_not hi]
  rw [List.takeWhile_eq_self_iff.2 hw, List.takeWhile_eq_self_iff.2 hr]

theorem corresponds_onRest (hw : ∀ c ∈ w, isIdentRest c = true)
    (hs : ∀ c ∈ s, c.toNat < 0x80) : Corresponds r (w ++ s) (r.onRest w s) := by
  have word : ∀ {v : List Char}, (∀ c ∈ v, isIdentRest c = true) → ∀ c ∈ v, isWord c = true :=
    fun hv c hc => isWord_of_isIdentRest (hv c hc)
  induction s generalizing w with
  | nil =>
    rw [Renaming.onRest, ← List.append_nil (r.onWord w)]
    exact .append_word (word hw) rfl (takeWhile_isIdentRest_onWord hw) .nil
  | cons c s ih =>
    have hc := hs c (List.mem_cons_self ..)
    have hrest := fun d hd => hs d (List.mem_cons_of_mem c hd)
    rw [Renaming.onRest]
    split
    · next hword =>
      -- the word goes on
      have hwc : ∀ d ∈ w ++ [c], isIdentRest d = true := by
        intro d hd
        rcases List.mem_append.1 hd with hd | hd
        · exact hw d hd
        · rw [List.mem_singleton.1 hd]
          exact isIdentRest_of_isWord hc hword
      rw [List.append_cons]
      exact ih hwc hrest
    · next hword =>
      rw [Bool.not_eq_true] at hword
      exact .append_word (word hw) (leadingWord_cons hword) (takeWhile_isIdentRest_onWord hw)
        (.cons_of_not_isWord hword (ih (w := []) (by simp) hrest))

/-- **A renamed ASCII source** corresponds to the source. -/
theorem corresponds_onSource (r : Renaming) (hs : ∀ c ∈ s, c.toNat < 0x80) :
    Corresponds r s (r.onSource s) :=
  corresponds_onRest (w := []) (by simp) hs

/-! ## Respaced sources -/

theorem Respaced.corresponds_append (h : Respaced s t) (hw : ∀ c ∈ w, isWord c = true) :
    Corresponds .identity (w ++ s) (w ++ t) := by
  have front : ∀ {w s t : List Char}, (∀ c ∈ w, isWord c = true) → leadingWord s = [] →
      Corresponds .identity s t → Corresponds .identity (w ++ s) (w ++ t) := by
    intro w s t hw hs h
    have hc := Corresponds.append_word hw hs (by simp) h
    rwa [Renaming.onWord_identity] at hc
  induction h generalizing w with
  | nil => exact front hw rfl .nil
  | @keep c s t hc h ih =>
    cases hword : isWord c with
    | true =>
      rw [List.append_cons, List.append_cons w c t]
      exact ih (by simpa [or_imp, forall_and, hword] using hw)
    | false =>
      -- the word so far ends here
      refine front hw (leadingWord_cons hword) (.cons_of_not_isWord hword ?_)
      exact ih (w := []) (by simp)
  | gap hg hg' h ih =>
    refine front hw ?_ (.gap hg hg' (ih (w := []) (by simp)))
    exact takeWhile_run_of_not hg fun _ => isWord_eq_false_of_isGap

/-- **A respaced source** corresponds to the source, with nothing renamed. -/
theorem Respaced.corresponds (h : Respaced s t) : Corresponds .identity s t :=
  h.corresponds_append (w := []) (by simp)

end HdlReview.Scan
