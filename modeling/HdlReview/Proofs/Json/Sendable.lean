import HdlReview.Json.Raw
import HdlReview.Keyed

/-!
# What can be sent again

A value that was read goes by its plain texts. Making the texts plain changes neither the lists and
objects of a value nor its numbers, so a value that can be sent again has only finite numbers.
Fields keep their names, and the field under a plain name is found in the value that was read as
well.

## Main results

* `RawText.plain_eq_iff`: which texts have a given plain text
* `Value.plain_raw`: plain texts stay as they are
* `Value.exists_of_plain_eq_obj`, `get?_fieldsMapTexts`: objects and their fields
* `Value.plain_filterNames`: leaving out fields
* `Value.allFinite_plain`: what can be sent again is finite
-/

namespace HdlReview.Text

/-! ## Texts -/

theorem Letter.plain_eq_iff {a : Letter} {c : Char} (hc : c ≠ replacement) :
    a.plain = c ↔ a = .char c := by
  cases a with
  | char d => simp [Letter.plain]
  | half unit => simpa [Letter.plain] using hc.symm

/-- **A text without replacements** is the plain text of just one text. -/
theorem RawText.plain_eq_iff {t : RawText} {s : String} (hs : replacement ∉ s.toList) :
    t.plain = s ↔ t = .ofString s := by
  have hletters : ∀ (cs : List Char) (t : RawText), replacement ∉ cs →
      (t.map Letter.plain = cs ↔ t = cs.map .char) := by
    intro cs
    induction cs with
    | nil => simp
    | cons c cs ih =>
      intro t hcs
      rw [List.mem_cons, not_or] at hcs
      cases t with
      | nil => simp
      | cons a t => simp [Letter.plain_eq_iff (Ne.symm hcs.1), ih t hcs.2]
  rw [RawText.plain, RawText.ofString, ← hletters s.toList t hs]
  constructor
  · rintro rfl
    exact String.toList_ofList.symm
  · intro h
    rw [h, String.ofList_toList]

end HdlReview.Text

namespace HdlReview.Json

open HdlReview.Text

/-! ## Lists and objects -/

variable {τ υ : Type} {f : τ → υ} {limit : Nat}

/-- A value whose plain value is an object is an object. -/
theorem Value.exists_of_plain_eq_obj {v : Value RawText} {fields : Fields}
    (h : v.plain = .obj fields) :
    ∃ rawFields, v = .obj rawFields ∧ fields = fieldsMapTexts RawText.plain rawFields := by
  cases v with
  | obj rawFields => exact ⟨rawFields, rfl, (Value.obj.inj h).symm⟩
  | _ => cases h

/-- **The field under a plain name** is the plain field of that name. -/
theorem get?_fieldsMapTexts {name : String} (hname : replacement ∉ name.toList)
    (fields : Fields RawText) :
    Keyed.get? name (fieldsMapTexts RawText.plain fields) =
      (Keyed.get? (RawText.ofString name) fields).map Value.plain := by
  induction fields with
  | nil => rfl
  | cons p fields ih =>
    obtain ⟨n, v⟩ := p
    rw [fieldsMapTexts, Keyed.get?, Keyed.get?, ih]
    by_cases hn : n = RawText.ofString name
    · rw [if_pos hn, if_pos ((RawText.plain_eq_iff hname).2 hn)]
      rfl
    · rw [if_neg hn, if_neg (mt (RawText.plain_eq_iff hname).1 hn)]

mutual

/-- **Plain texts stay as they are**. -/
theorem Value.plain_raw : ∀ v : Value, v.raw.plain = v
  | .null => rfl
  | .bool _ => rfl
  | .int _ => rfl
  | .float _ => rfl
  | .str s => congrArg Value.str (RawText.plain_ofString s)
  | .list items => congrArg Value.list (listPlain_listRaw items)
  | .obj fields => congrArg Value.obj (fieldsPlain_fieldsRaw fields)

theorem listPlain_listRaw : ∀ items : List Value,
    listMapTexts RawText.plain (listMapTexts RawText.ofString items) = items
  | [] => rfl
  | v :: items => by
    rw [listMapTexts, listMapTexts, listPlain_listRaw items]
    exact congrArg (· :: items) v.plain_raw

theorem fieldsPlain_fieldsRaw : ∀ fields : Fields,
    fieldsMapTexts RawText.plain (fieldsMapTexts RawText.ofString fields) = fields
  | [] => rfl
  | (n, v) :: fields => by
    rw [fieldsMapTexts, fieldsMapTexts, fieldsPlain_fieldsRaw fields, RawText.plain_ofString]
    exact congrArg (fun w => (n, w) :: fields) v.plain_raw

end

/-! ## Leaving out fields -/

mutual

/-- **Leaving out fields** by their plain names, before or after the texts are made plain. -/
theorem Value.plain_filterNames (keep : String → Bool) :
    ∀ v : Value RawText,
      (v.filterNames fun n => keep n.plain).plain = v.plain.filterNames keep
  | .null => rfl
  | .bool _ => rfl
  | .int _ => rfl
  | .float _ => rfl
  | .str _ => rfl
  | .list items => congrArg Value.list (listPlain_listFilterNames keep items)
  | .obj fields => congrArg Value.obj (fieldsPlain_fieldsFilterNames keep fields)

theorem listPlain_listFilterNames (keep : String → Bool) :
    ∀ items : List (Value RawText),
      listMapTexts RawText.plain (listFilterNames (fun n => keep n.plain) items) =
        listFilterNames keep (listMapTexts RawText.plain items)
  | [] => rfl
  | v :: items => by
    rw [listFilterNames, listMapTexts, listPlain_listFilterNames keep items, listMapTexts,
      listFilterNames]
    exact congrArg (· :: _) (v.plain_filterNames keep)

theorem fieldsPlain_fieldsFilterNames (keep : String → Bool) :
    ∀ fields : Fields RawText,
      fieldsMapTexts RawText.plain (fieldsFilterNames (fun n => keep n.plain) fields) =
        fieldsFilterNames keep (fieldsMapTexts RawText.plain fields)
  | [] => rfl
  | (n, v) :: fields => by
    have hrest := fieldsPlain_fieldsFilterNames keep fields
    rw [fieldsFilterNames, fieldsMapTexts, fieldsFilterNames]
    split
    · rw [fieldsMapTexts, hrest]
      exact congrArg (fun w => (n.plain, w) :: _) (v.plain_filterNames keep)
    · exact hrest

end

/-! ## Values that can be sent -/

mutual

/-- **What can be sent again** has only finite numbers. -/
theorem Value.allFinite_plain :
    ∀ {limit : Nat} (v : Value RawText), v.sendable limit = true → v.plain.allFinite = true
  | _, .null, _ => rfl
  | _, .bool _, _ => rfl
  | _, .int _, _ => rfl
  | _, .float _, h => h
  | _, .str _, _ => rfl
  | _, .list items, h => listFinite_plain items (Bool.and_eq_true_iff.1 h).2
  | _, .obj fields, h => fieldsFinite_plain fields (Bool.and_eq_true_iff.1 h).2

theorem listFinite_plain :
    ∀ {limit : Nat} (items : List (Value RawText)), listSendable limit items = true →
      listFinite (listMapTexts RawText.plain items) = true
  | _, [], _ => rfl
  | _, v :: items, h => by
    rw [listSendable, Bool.and_eq_true] at h
    rw [listMapTexts, listFinite, Bool.and_eq_true]
    exact ⟨v.allFinite_plain h.1, listFinite_plain items h.2⟩

theorem fieldsFinite_plain :
    ∀ {limit : Nat} (fields : Fields RawText), fieldsSendable limit fields = true →
      fieldsFinite (fieldsMapTexts RawText.plain fields) = true
  | _, [], _ => rfl
  | _, (n, v) :: fields, h => by
    rw [fieldsSendable, Bool.and_eq_true, Bool.and_eq_true] at h
    rw [fieldsMapTexts, fieldsFinite, Bool.and_eq_true]
    exact ⟨v.allFinite_plain h.1.2, fieldsFinite_plain fields h.2⟩

end

end HdlReview.Json
