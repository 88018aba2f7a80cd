/-!
# Lists with keys

An ordered list of values under names, one value to a name: the fields of an object, the rules of a
table, the variables of an environment. The names are of any type. Setting a name keeps its place if
it has one and appends otherwise.

## Main definitions

* `Keyed.insert name v entries`: the list with `name` set to `v`
* `Keyed.get? name entries`: the value under a name
-/

namespace HdlReview.Keyed

variable {κ α : Type} [DecidableEq κ]

/-- The list with one name set: at its old place, or at the end if the name is new. -/
def insert (name : κ) (v : α) : List (κ × α) → List (κ × α)
  | [] => [(name, v)]
  | (n, w) :: entries => if n = name then (n, v) :: entries else (n, w) :: insert name v entries

/-- The value under a name. -/
def get? (name : κ) : List (κ × α) → Option α
  | [] => none
  | (n, v) :: entries => if n = name then some v else get? name entries

theorem get?_eq_some_mem {name : κ} {v : α} {entries : List (κ × α)}
    (h : get? name entries = some v) : (name, v) ∈ entries := by
  induction entries with
  | nil => simp [get?] at h
  | cons f entries ih =>
    by_cases hf : f.1 = name
    · simp only [get?, hf, if_true, Option.some.injEq] at h
      exact List.mem_cons.2 (.inl (Prod.ext hf.symm h.symm))
    · simp only [get?, hf, if_false] at h
      exact List.mem_cons_of_mem _ (ih h)

theorem mem_of_mem_insert {name : κ} {v : α} {entries : List (κ × α)} {f : κ × α}
    (h : f ∈ insert name v entries) : f = (name, v) ∨ f ∈ entries := by
  induction entries with
  | nil => exact .inl (List.mem_singleton.1 h)
  | cons e entries ih =>
    rw [insert] at h
    split at h
    · next hname =>
      rcases List.mem_cons.1 h with rfl | hm
      · exact .inl (by rw [hname])
      · exact .inr (List.mem_cons_of_mem e hm)
    · rcases List.mem_cons.1 h with rfl | hm
      · exact .inr (List.mem_cons_self ..)
      · exact (ih hm).imp_right (List.mem_cons_of_mem e)

/-- Setting a name that is there changes the value at its place and nothing else. -/
theorem exists_insert_eq_append {name : κ} {entries : List (κ × α)}
    (h : name ∈ entries.map (·.1)) :
    ∃ front v back, entries = front ++ (name, v) :: back ∧ get? name entries = some v ∧
      ∀ w, insert name w entries = front ++ (name, w) :: back := by
  induction entries with
  | nil => simp at h
  | cons f entries ih =>
    by_cases hf : f.1 = name
    · subst hf
      exact ⟨[], f.2, entries, rfl, by simp [get?], fun w => by simp [insert]⟩
    · obtain ⟨front, v, back, he, hg, hi⟩ :=
        ih ((List.mem_cons.1 h).resolve_left fun hn => hf hn.symm)
      exact ⟨f :: front, v, back, by rw [he, List.cons_append], by simp [get?, hf, hg],
        fun w => by simp [insert, hf, hi w]⟩

theorem insert_of_not_mem {name : κ} {entries : List (κ × α)}
    (h : name ∉ entries.map (·.1)) (v : α) : insert name v entries = entries ++ [(name, v)] := by
  induction entries with
  | nil => rfl
  | cons f entries ih =>
    rw [List.map_cons, List.mem_cons, not_or] at h
    simp [insert, Ne.symm h.1, ih h.2]

/-- Setting a name keeps the names distinct. -/
theorem nodup_insert {entries : List (κ × α)} (h : (entries.map (·.1)).Nodup) (name : κ)
    (v : α) : ((insert name v entries).map (·.1)).Nodup := by
  by_cases hm : name ∈ entries.map (·.1)
  · obtain ⟨front, w, back, he, -, hi⟩ := exists_insert_eq_append hm
    rw [hi v]
    rw [he] at h
    simpa using h
  · rw [insert_of_not_mem hm, List.map_append, List.nodup_append]
    refine ⟨h, by simp, ?_⟩
    rintro a ha b hb rfl
    exact hm (by simpa [List.mem_singleton.1 hb] using ha)

/-- With distinct names, each entry is the value under its name. -/
theorem get?_of_mem {name : κ} {v : α} {entries : List (κ × α)}
    (h : (entries.map (·.1)).Nodup) (hm : (name, v) ∈ entries) : get? name entries = some v := by
  induction entries with
  | nil => simp at hm
  | cons f entries ih =>
    rw [List.map_cons, List.nodup_cons] at h
    rcases List.mem_cons.1 hm with rfl | hm
    · simp [get?]
    · have hf : f.1 ≠ name := fun he => h.1 (he ▸ List.mem_map_of_mem hm)
      simp [get?, hf, ih h.2 hm]

end HdlReview.Keyed
