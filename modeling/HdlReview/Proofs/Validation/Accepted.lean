import HdlReview.Validation.Reader

/-!
# What readers accept

A reader that was lenient about the form of a value has still checked it. Each reader of a part
ensures a property of what it accepts, whatever the value was, and the readers of lists, of values
that may be absent and of fields pass this on from their parts.

## Main definitions

* `Ensures read P`: what the reader accepts has the property

## Main results

* `ensures_nonEmptyText`, `ensures_atLeast`: parts
* `Ensures.nullable`, `Ensures.listOf`, `Ensures.required`, `Ensures.optional`: what readers pass on
-/

namespace HdlReview.Validation

open HdlReview.Json

variable {α : Type} {read : Reader α} {P : α → Prop} {name : String} {fields : Fields} {a : α}

/-- **A reader ensures a property** of all that it accepts. -/
def Ensures (read : Reader α) (P : α → Prop) : Prop :=
  ∀ v a, read v = .ok a → P a

theorem ensures_nonEmptyText : Ensures nonEmptyText (· ≠ "") := by
  intro v s h
  unfold nonEmptyText at h
  split at h
  · split at h
    · cases h
    · next hne =>
      cases h
      exact hne
  · cases h

theorem ensures_atLeast (bound : Nat) : Ensures (atLeast bound) (bound ≤ ·) := by
  intro v n h
  unfold atLeast at h
  split at h
  · split at h
    · cases h
      omega
    · cases h
  · cases h

theorem Ensures.nullable (h : Ensures read P) :
    Ensures (nullable read) fun o => ∀ a, o = some a → P a := by
  rintro v o ho a rfl
  -- null is read as an absent value, so there is a value only from the reader itself
  unfold Validation.nullable at ho
  split at ho
  · cases ho
  · split at ho
    · next hb =>
      cases ho
      exact h _ a hb
    · cases ho

theorem Ensures.itemsFrom (h : Ensures read P) {items : List Value} {index : Nat} {as : List α}
    (hitems : itemsFrom read index items = .ok as) : ∀ a ∈ as, P a := by
  induction items generalizing index as with
  | nil =>
    cases hitems
    simp
  | cons v items ih =>
    unfold Validation.itemsFrom at hitems
    obtain ⟨f, rest, hhead, hrest, rfl⟩ := Checked.ap_eq_ok_iff.1 hitems
    obtain ⟨g, b, hg, hb, rfl⟩ := Checked.ap_eq_ok_iff.1 hhead
    cases hg
    exact List.forall_mem_cons.2 ⟨h v b (Checked.within_eq_ok_iff.1 hb), ih hrest⟩

theorem Ensures.listOf (h : Ensures read P) : Ensures (listOf read) fun as => ∀ a ∈ as, P a := by
  intro v as has
  cases v with
  | list items => exact h.itemsFrom has
  | _ => cases has

theorem Ensures.required (h : Ensures read P) (hf : required name read fields = .ok a) : P a := by
  unfold Validation.required at hf
  split at hf
  · next v _ => exact h v a (Checked.within_eq_ok_iff.1 hf)
  · cases hf

theorem Ensures.optional (h : Ensures read P) {default : α} (hdefault : P default)
    (hf : optional name read default fields = .ok a) : P a := by
  unfold Validation.optional at hf
  split at hf
  · next v _ => exact h v a (Checked.within_eq_ok_iff.1 hf)
  · cases hf
    exact hdefault

theorem ensures_record {readFields : Fields → Checked α}
    (h : ∀ fields a, readFields fields = .ok a → P a) : Ensures (record name readFields) P := by
  intro v a ha
  cases v with
  | obj fields => exact h fields a ha
  | _ => cases ha

end HdlReview.Validation
