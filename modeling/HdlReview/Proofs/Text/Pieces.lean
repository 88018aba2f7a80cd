import Mathlib.Data.List.Basic

/-!
# The pieces of a text

A text that was put together from pieces with a separator between them is taken apart again, as long
as no piece has the first character of the separator in it.

## Main definitions

* `splitText sep s`: the pieces of a text between the occurrences of a separator
* `behindFirst? mark s`: the text behind the first occurrence of a mark

## Main results

* `splitText_intercalate`: what was joined with a separator is taken apart again
-/

namespace HdlReview.Text

/-- The pieces of a text between the occurrences of a separator, after `skip` characters of the one
before. -/
def splitFrom (sep : List Char) : Nat → List Char → List (List Char)
  | _, [] => [[]]
  | skip + 1, _ :: s => splitFrom sep skip s
  | 0, c :: s =>
    if sep.isPrefixOf (c :: s) then [] :: splitFrom sep (sep.length - 1) s
    else (splitFrom sep 0 s).modifyHead (c :: ·)

/-- **The pieces of a text between the occurrences of a separator**, from the left. -/
def splitText (sep s : List Char) : List (List Char) :=
  splitFrom sep 0 s

/-- The text behind the first occurrence of a mark. -/
def behindFirst? (mark : List Char) : List Char → Option (List Char)
  | [] => none
  | c :: s =>
    if mark.isPrefixOf (c :: s) then some ((c :: s).drop mark.length) else behindFirst? mark s

variable {d : Char} {sep n s : List Char}

theorem splitFrom_skip (sep a s : List Char) :
    splitFrom sep a.length (a ++ s) = splitFrom sep 0 s := by
  induction a with
  | nil => rfl
  | cons c a ih => exact ih

theorem splitFrom_separator :
    splitFrom (d :: sep) 0 (d :: (sep ++ s)) = [] :: splitFrom (d :: sep) 0 s := by
  have hprefix : (d :: sep).isPrefixOf (d :: (sep ++ s)) = true :=
    List.isPrefixOf_iff_prefix.2 (List.prefix_append (d :: sep) s)
  rw [splitFrom, if_pos hprefix, List.length_cons, Nat.add_sub_cancel, splitFrom_skip]

/-- No separator starts in a text without its first character. -/
theorem splitFrom_append (hn : d ∉ n) :
    splitFrom (d :: sep) 0 (n ++ s) = (splitFrom (d :: sep) 0 s).modifyHead (n ++ ·) := by
  induction n with
  | nil =>
    rw [List.nil_append]
    cases splitFrom (d :: sep) 0 s <;> rfl
  | cons c n ih =>
    rw [List.mem_cons, not_or] at hn
    have hprefix : ¬ (d :: sep).isPrefixOf (c :: (n ++ s)) = true := by
      simp [hn.1]
    rw [List.cons_append, splitFrom, if_neg hprefix, ih hn.2, List.modifyHead_modifyHead]
    rfl

/-- **What was joined with a separator is taken apart again**, if no piece has the first character
of the separator in it. -/
theorem splitText_intercalate {names : List (List Char)} (hnames : ∀ n ∈ names, d ∉ n)
    (hne : names ≠ []) : splitText (d :: sep) ((d :: sep).intercalate names) = names := by
  obtain ⟨n, names, rfl⟩ := List.exists_cons_of_ne_nil hne
  rw [splitText]
  induction names generalizing n with
  | nil =>
    have hn : d ∉ n := hnames n (List.mem_singleton_self n)
    have happend := @splitFrom_append d sep n [] hn
    simpa [splitFrom] using happend
  | cons m names ih =>
    have hn : d ∉ n := hnames n (List.mem_cons_self ..)
    have hrest := ih m (fun k hk => hnames k (List.mem_cons_of_mem n hk)) (List.cons_ne_nil m names)
    rw [List.intercalate_cons_cons, List.append_assoc, List.cons_append, splitFrom_append hn,
      splitFrom_separator, hrest]
    simp

end HdlReview.Text
