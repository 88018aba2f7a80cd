import HdlReview.Json.Value

/-!
# Finite data

A value has only finite numbers just if its parts have. Leaving out fields adds no number, so what
is left of a finite value is finite. With null in place of the numbers that are not finite a value
keeps its levels, and there is nothing left to replace.

## Main results

* `allFinite_list_iff`, `allFinite_obj_iff`: finite lists and objects, part by part
* `filterNames_list`, `filterNames_obj`: leaving out fields, part by part
* `Value.allFinite_filterNames`: what is left of a finite value is finite
* `Value.onlyFinite_onlyFinite`, `Value.levels_onlyFinite`: null in place of the other numbers
-/

namespace HdlReview.Json

variable {keep : String → Bool}

/-! ## Parts -/

theorem listFinite_iff {items : List Value} :
    listFinite items = true ↔ ∀ v ∈ items, v.allFinite = true := by
  induction items with
  | nil => simp [listFinite]
  | cons v items ih => simp [listFinite, ih]

theorem fieldsFinite_iff {fields : Fields} :
    fieldsFinite fields = true ↔ ∀ f ∈ fields, f.2.allFinite = true := by
  induction fields with
  | nil => simp [fieldsFinite]
  | cons f fields ih => simp [fieldsFinite, ih]

theorem fieldsFinite_append (a b : Fields) :
    fieldsFinite (a ++ b) = (fieldsFinite a && fieldsFinite b) := by
  induction a with
  | nil => rfl
  | cons f a ih => rw [List.cons_append, fieldsFinite, fieldsFinite, ih, Bool.and_assoc]

theorem allFinite_list_iff {items : List Value} :
    (Value.list items).allFinite = true ↔ ∀ v ∈ items, v.allFinite = true := by
  rw [Value.allFinite, listFinite_iff]

theorem allFinite_obj_iff {fields : Fields} :
    (Value.obj fields).allFinite = true ↔ ∀ f ∈ fields, f.2.allFinite = true := by
  rw [Value.allFinite, fieldsFinite_iff]

theorem listFinite_map {α : Type} {f : α → Value} (h : ∀ a, (f a).allFinite = true) (as : List α) :
    listFinite (as.map f) = true := by
  refine listFinite_iff.2 fun v hv => ?_
  obtain ⟨a, -, rfl⟩ := List.mem_map.1 hv
  exact h a

theorem allFinite_texts (ss : List String) : (Value.texts ss).allFinite = true :=
  listFinite_map (fun _ => rfl) ss

theorem allFinite_ofOption {α : Type} (f : α → Value) (o : Option α) :
    (Value.ofOption f o).allFinite = o.all fun a => (f a).allFinite := by
  cases o <;> rfl

theorem filterNames_list (items : List Value) :
    (Value.list items).filterNames keep = .list (items.map (Value.filterNames keep)) := by
  have hitems : listFilterNames keep items = items.map (Value.filterNames keep) := by
    induction items with
    | nil => rfl
    | cons v items ih => rw [listFilterNames, ih, List.map_cons]
  rw [Value.filterNames, hitems]

theorem filterNames_obj (fields : Fields) :
    (Value.obj fields).filterNames keep =
      .obj ((fields.filter fun f => keep f.1).map fun f => (f.1, f.2.filterNames keep)) := by
  have hfields : fieldsFilterNames keep fields =
      (fields.filter fun f => keep f.1).map fun f => (f.1, f.2.filterNames keep) := by
    induction fields with
    | nil => rfl
    | cons f fields ih =>
      rw [fieldsFilterNames, ih, List.filter_cons]
      split <;> simp
  rw [Value.filterNames, hfields]

/-! ## Leaving out fields -/

mutual

/-- **What is left of a finite value** is finite. -/
theorem Value.allFinite_filterNames (keep : String → Bool) :
    ∀ v : Value, v.allFinite = true → (v.filterNames keep).allFinite = true
  | .null, h => h
  | .bool _, h => h
  | .int _, h => h
  | .float _, h => h
  | .str _, h => h
  | .list items, h => listFinite_listFilterNames keep items h
  | .obj fields, h => fieldsFinite_fieldsFilterNames keep fields h

theorem listFinite_listFilterNames (keep : String → Bool) :
    ∀ items : List Value, listFinite items = true → listFinite (listFilterNames keep items) = true
  | [], h => h
  | v :: items, h => by
    rw [listFinite, Bool.and_eq_true] at h
    rw [listFilterNames, listFinite, Bool.and_eq_true]
    exact ⟨v.allFinite_filterNames keep h.1, listFinite_listFilterNames keep items h.2⟩

theorem fieldsFinite_fieldsFilterNames (keep : String → Bool) :
    ∀ fields : Fields,
      fieldsFinite fields = true → fieldsFinite (fieldsFilterNames keep fields) = true
  | [], h => h
  | (n, v) :: fields, h => by
    rw [fieldsFinite, Bool.and_eq_true] at h
    have hrest := fieldsFinite_fieldsFilterNames keep fields h.2
    rw [fieldsFilterNames]
    -- only a field that is kept counts
    split
    · rw [fieldsFinite, Bool.and_eq_true]
      exact ⟨v.allFinite_filterNames keep h.1, hrest⟩
    · exact hrest

end

/-! ## Null in place of the other numbers -/

mutual

/-- **Nothing is left to replace** after the first time. -/
theorem Value.onlyFinite_onlyFinite : ∀ v : Value, v.onlyFinite.onlyFinite = v.onlyFinite
  | .null => rfl
  | .bool _ => rfl
  | .int _ => rfl
  | .float x => by
    rw [Value.onlyFinite]
    split
    · next hx => exact if_pos hx
    · rfl
  | .str _ => rfl
  | .list items => congrArg Value.list (listOnlyFinite_listOnlyFinite items)
  | .obj fields => congrArg Value.obj (fieldsOnlyFinite_fieldsOnlyFinite fields)

theorem listOnlyFinite_listOnlyFinite :
    ∀ items : List Value, listOnlyFinite (listOnlyFinite items) = listOnlyFinite items
  | [] => rfl
  | v :: items => by
    rw [listOnlyFinite, listOnlyFinite, v.onlyFinite_onlyFinite,
      listOnlyFinite_listOnlyFinite items]

theorem fieldsOnlyFinite_fieldsOnlyFinite :
    ∀ fields : Fields, fieldsOnlyFinite (fieldsOnlyFinite fields) = fieldsOnlyFinite fields
  | [] => rfl
  | (n, v) :: fields => by
    rw [fieldsOnlyFinite, fieldsOnlyFinite, v.onlyFinite_onlyFinite,
      fieldsOnlyFinite_fieldsOnlyFinite fields]

end

mutual

/-- **The levels stay**: null takes the place of a number, which holds no value either. -/
theorem Value.levels_onlyFinite : ∀ v : Value, v.onlyFinite.levels = v.levels
  | .null => rfl
  | .bool _ => rfl
  | .int _ => rfl
  | .float x => by
    rw [Value.onlyFinite]
    split <;> rfl
  | .str _ => rfl
  | .list items => congrArg (· + 1) (listLevels_listOnlyFinite items)
  | .obj fields => congrArg (· + 1) (fieldsLevels_fieldsOnlyFinite fields)

theorem listLevels_listOnlyFinite :
    ∀ items : List Value, listLevels (listOnlyFinite items) = listLevels items
  | [] => rfl
  | v :: items => by
    rw [listOnlyFinite, listLevels, listLevels, v.levels_onlyFinite,
      listLevels_listOnlyFinite items]

theorem fieldsLevels_fieldsOnlyFinite :
    ∀ fields : Fields, fieldsLevels (fieldsOnlyFinite fields) = fieldsLevels fields
  | [] => rfl
  | (_, v) :: fields => by
    rw [fieldsOnlyFinite, fieldsLevels, fieldsLevels, v.levels_onlyFinite,
      fieldsLevels_fieldsOnlyFinite fields]

end

end HdlReview.Json
