import HdlReview.Validation.Reader

/-!
# Reading what was written

Each reader of a part gives back the value whose data it is handed, and the readers of lists, of
values that may be absent and of fields pass this on from their parts.

## Main results

* `atLeast_int`, `nonEmptyText_str`: numbers within their bound and texts that are not empty
* `nullable_ofOption`, `listOf_map`: values that may be absent, and lists
* `required_of_get?`, `optional_of_get?`: fields
-/

namespace HdlReview.Validation

open HdlReview.Json

variable {α : Type}

theorem atLeast_int {bound n : Nat} (h : bound ≤ n) : atLeast bound (.int n) = .ok n := by
  have hb : (bound : Int) ≤ n := Int.ofNat_le.2 h
  simp [atLeast, integer, hb]

theorem nonEmptyText_str {s : String} (h : s ≠ "") : nonEmptyText (.str s) = .ok s := by
  simp [nonEmptyText, text, h]

/-- A reader that gives back `a` from its data gives back `a` from the data of `some a`. -/
theorem nullable_ofOption {read : Reader α} {dump : α → Value} {o : Option α}
    (hn : ∀ a, dump a ≠ .null) (h : ∀ a, o = some a → read (dump a) = .ok a) :
    nullable read (.ofOption dump o) = .ok o := by
  cases o with
  | none => rfl
  | some a =>
    have ha : read (dump a) = .ok a := h a rfl
    rw [Value.ofOption]
    -- data of a value is never taken for an absent one
    cases hd : dump a with
    | null => exact absurd hd (hn a)
    | _ =>
      rw [hd] at ha
      simp [nullable, ha]

theorem nullable_text (s : Option String) : nullable text (.ofOption .str s) = .ok s := by
  apply nullable_ofOption
  · intro s
    exact nofun
  · intro s _
    rfl

/-- A double is taken as it is, also if it is infinite or not a number. -/
theorem nullable_number (x : Option Decimal.Double) :
    nullable number (.ofOption .float x) = .ok x := by
  apply nullable_ofOption
  · intro x
    exact nofun
  · intro x _
    rfl

theorem itemsFrom_map {read : Reader α} {dump : α → Value} {as : List α}
    (h : ∀ a ∈ as, read (dump a) = .ok a) (index : Nat) :
    itemsFrom read index (as.map dump) = .ok as := by
  induction as generalizing index with
  | nil => rfl
  | cons a as ih =>
    have ha : read (dump a) = .ok a := h a (List.mem_cons_self ..)
    have has := ih (fun b hb => h b (List.mem_cons_of_mem a hb)) (index + 1)
    simp [itemsFrom, ha, has]

theorem listOf_map {read : Reader α} {dump : α → Value} {as : List α}
    (h : ∀ a ∈ as, read (dump a) = .ok a) : listOf read (.list (as.map dump)) = .ok as :=
  itemsFrom_map h 0

theorem listOf_texts (ss : List String) : listOf text (.texts ss) = .ok ss :=
  listOf_map fun _ _ => rfl

theorem member_of_get? {members : List (String × α)} {name : String} {a : α}
    (h : Keyed.get? name members = some a) : member members (.str name) = .ok a := by
  simp [member, h]

theorem listed_of_get? {members : List (String × α)} {name : String} {a : α}
    (h : Keyed.get? name members = some a) : listed members (.str name) = .ok a := by
  simp [listed, h]

theorem required_of_get? {name : String} {read : Reader α} {fields : Fields} {v : Value} {a : α}
    (hg : Keyed.get? name fields = some v) (hr : read v = .ok a) :
    required name read fields = .ok a := by
  simp [required, hg, hr]

theorem optional_of_get? {name : String} {read : Reader α} {default : α} {fields : Fields}
    {v : Value} {a : α} (hg : Keyed.get? name fields = some v) (hr : read v = .ok a) :
    optional name read default fields = .ok a := by
  simp [optional, hg, hr]

end HdlReview.Validation
