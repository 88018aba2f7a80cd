import Mathlib.Data.List.Basic

/-!
# Names in order of first appearance

Names are listed each once, in the order of their first appearance. Such a list has no repetition,
and renaming all names by an injective map renames the list. When the names stand at places, the
list is determined by the places alone.

## Main definitions

* `InOrder At names`: each name that stands at some place, once, in order of the first place

## Main results

* `nodup_eraseDups`, `eraseDups_map`, `eraseDups_filter`
* `eraseDups_append_eq`: names that are listed first keep their places, later ones follow
* `inOrder_eraseDups`: names taken from left to right, without later repetitions
* `InOrder.filter`, `InOrder.eq_nil_iff`
-/

namespace HdlReview.Scan

variable {α β : Type}

section Repetitions

variable [BEq α] [LawfulBEq α] [BEq β] [LawfulBEq β]

theorem nodup_eraseDups (l : List α) : l.eraseDups.Nodup := by
  -- the tail of the result comes from a shorter list, not from the tail of the argument
  induction hn : l.length using Nat.strongRecOn generalizing l with
  | ind n ih =>
    cases l with
    | nil => simp
    | cons a l =>
      rw [List.eraseDups_cons, List.nodup_cons]
      refine ⟨by simp, ih _ ?_ _ rfl⟩
      rw [← hn]
      exact Nat.lt_succ_of_le (List.length_filter_le ..)

theorem eraseDups_map {f : α → β} (hf : Function.Injective f) (l : List α) :
    (l.map f).eraseDups = l.eraseDups.map f := by
  induction hn : l.length using Nat.strongRecOn generalizing l with
  | ind n ih =>
    cases l with
    | nil => simp
    | cons a l =>
      -- dropping the repetitions of `f a` from the images drops those of `a`
      have hp : ((fun b => !b == f a) ∘ f) = fun b => !b == a := by
        funext b
        by_cases hb : b = a
        · simp [hb]
        · simp [hb, hf.ne hb]
      rw [List.map_cons, List.eraseDups_cons, List.eraseDups_cons, List.map_cons, List.filter_map,
        hp, ih _ ?_ _ rfl]
      rw [← hn]
      exact Nat.lt_succ_of_le (List.length_filter_le ..)

/-- Which names are left out and which are repetitions are separate matters. -/
theorem eraseDups_filter (keep : α → Bool) (l : List α) :
    (l.filter keep).eraseDups = l.eraseDups.filter keep := by
  induction hn : l.length using Nat.strongRecOn generalizing l with
  | ind n ih =>
    cases l with
    | nil => simp
    | cons a l =>
      have hrest : ((l.filter keep).filter fun b => !b == a).eraseDups =
          (l.filter fun b => !b == a).eraseDups.filter keep := by
        rw [List.filter_comm]
        refine ih _ ?_ _ rfl
        rw [← hn]
        exact Nat.lt_succ_of_le (List.length_filter_le ..)
      rw [List.eraseDups_cons]
      by_cases ha : keep a = true
      · rw [List.filter_cons_of_pos ha, List.eraseDups_cons, hrest, List.filter_cons_of_pos ha]
      · -- a name that is left out has no repetitions among the others
        have hleft : (l.filter keep).filter (fun b => !b == a) = l.filter keep := by
          rw [List.filter_eq_self]
          intro b hb
          rw [Bool.not_eq_true', beq_eq_false_iff_ne]
          rintro rfl
          exact ha (List.mem_filter.1 hb).2
        rw [List.filter_cons_of_neg ha, List.filter_cons_of_neg ha, ← hrest, hleft]

/-- **Names that are listed one after the other**: the second ones follow as far as they are new. -/
theorem eraseDups_append_eq (l k : List α) :
    (l ++ k).eraseDups = l.eraseDups ++ k.eraseDups.filter (· ∉ l.eraseDups) := by
  have hnew : (fun x => !l.elem x) = fun x => decide (x ∉ l.eraseDups) := by
    funext x
    rw [Bool.eq_iff_iff]
    simp
  rw [List.eraseDups_append, List.removeAll, eraseDups_filter, hnew]

end Repetitions

/-! ## Places -/

/-- **Names in order of first appearance**: each name that stands at some place, and a name before
another just if it has a place before all places of the other. -/
structure InOrder (At : α → Nat → Prop) (names : List α) : Prop where
  mem_iff : ∀ x, x ∈ names ↔ ∃ i, At x i
  pairwise : names.Pairwise fun x y => ∃ i, At x i ∧ ∀ j, At y j → i < j

/-- **Names taken from left to right**, without later repetitions, are in order of first
appearance. -/
theorem inOrder_eraseDups [BEq α] [LawfulBEq α] {place : β → Nat} {name : β → α} {l : List β}
    (hl : l.Pairwise fun m m' => place m < place m') :
    InOrder (fun x i => ∃ m ∈ l, name m = x ∧ place m = i) (l.map name).eraseDups := by
  refine ⟨fun x => by simp, ?_⟩
  -- the names behind the first come from a shorter list, in which its repetitions are left out
  induction hn : l.length using Nat.strongRecOn generalizing l with
  | ind n ih =>
    cases l with
    | nil => simp
    | cons m l =>
      obtain ⟨hfirst, hrest⟩ := List.pairwise_cons.1 hl
      have hfilter : (l.map name).filter (fun y => !y == name m) =
          (l.filter fun m' => !name m' == name m).map name := by
        rw [List.filter_map]
        rfl
      rw [List.map_cons, List.eraseDups_cons, hfilter, List.pairwise_cons]
      have hlen : (l.filter fun m' => !name m' == name m).length < n := by
        rw [← hn]
        exact Nat.lt_succ_of_le (List.length_filter_le ..)
      -- a match of another name than the first is one of those that are left
      have hleft : ∀ m' ∈ m :: l, name m' ≠ name m →
          m' ∈ l.filter fun m' => !name m' == name m := by
        intro m' hm' hne
        rcases List.mem_cons.1 hm' with rfl | hm'
        · exact absurd rfl hne
        · exact List.mem_filter.2 ⟨hm', by simpa using hne⟩
      have hname : ∀ y, y ∈ ((l.filter fun m' => !name m' == name m).map name).eraseDups →
          y ≠ name m := by
        intro y hy
        rw [List.mem_eraseDups, List.mem_map] at hy
        obtain ⟨m', hm', rfl⟩ := hy
        simpa using (List.mem_filter.1 hm').2
      refine ⟨?_, ?_⟩
      · intro y hy
        refine ⟨place m, ⟨m, by simp, rfl, rfl⟩, ?_⟩
        rintro j ⟨m', hm', rfl, rfl⟩
        exact hfirst m' (List.mem_filter.1 (hleft m' hm' (hname _ hy))).1
      · refine (ih _ hlen (hrest.sublist List.filter_sublist) rfl).imp_of_mem ?_
        rintro x y hx hy ⟨i, ⟨m', hm', hx', hi⟩, hbefore⟩
        refine ⟨i, ⟨m', List.mem_cons_of_mem m (List.mem_filter.1 hm').1, hx', hi⟩, ?_⟩
        rintro j ⟨m₂, hm₂, rfl, rfl⟩
        exact hbefore _ ⟨m₂, hleft m₂ hm₂ (hname _ hy), rfl, rfl⟩

namespace InOrder

variable {At At' : α → Nat → Prop} {names : List α}

theorem congr (h : InOrder At names) (hiff : ∀ x i, At x i ↔ At' x i) : InOrder At' names := by
  have he : At = At' := by
    funext x i
    exact propext (hiff x i)
  rwa [← he]

theorem filter (h : InOrder At names) (keep : α → Bool) :
    InOrder (fun x i => At x i ∧ keep x = true) (names.filter keep) := by
  refine ⟨?_, ?_⟩
  · intro x
    rw [List.mem_filter, h.mem_iff, exists_and_right]
  · refine (h.pairwise.sublist List.filter_sublist).imp_of_mem ?_
    rintro x y hx - ⟨i, hi, hbefore⟩
    exact ⟨i, ⟨hi, (List.mem_filter.1 hx).2⟩, fun j hj => hbefore j hj.1⟩

theorem eq_nil_iff (h : InOrder At names) : names = [] ↔ ∀ x i, ¬ At x i := by
  rw [List.eq_nil_iff_forall_not_mem]
  simp only [h.mem_iff, not_exists]

end InOrder

end HdlReview.Scan
