import HdlReview.Scan.Search

/-!
# Scanning stretch by stretch

A source is often known as stretches of text in a row. A search passes over a stretch in which no
match starts, and goes on behind a match that it finds; the same holds for the search for all
matches and for cutting a text into pieces.

## Main definitions

* `behind before a`: the character before the place behind the stretch `a`
* `Barren p before a s`: no match of `p` starts in the stretch `a`, which `s` follows

## Main results

* `barren_append`, `barren_of_class`, `barren_of_isSuffix`: stretches that are barren
* `searchFrom_append`, `findFrom_append`, `cutFrom_append`: passing over a barren stretch
* `searchFrom_hit`, `findFrom_hit`, `cutFrom_hit`: going on behind a match
-/

namespace HdlReview.Scan

variable {p : Pattern} {before : Option Char} {a s : List Char}

/-- The character before the place behind a stretch. -/
def behind : Option Char → List Char → Option Char
  | before, [] => before
  | _, c :: a => behind (some c) a

@[simp] theorem behind_nil (before : Option Char) : behind before [] = before := rfl

@[simp] theorem behind_cons (before : Option Char) (c : Char) (a : List Char) :
    behind before (c :: a) = behind (some c) a := rfl

theorem behind_append (before : Option Char) (a b : List Char) :
    behind before (a ++ b) = behind (behind before a) b := by
  induction a generalizing before with
  | nil => rfl
  | cons c a ih => exact ih (some c)

/-- Behind a stretch that is not empty stands one of its own characters. -/
theorem exists_mem_behind (h : a ≠ []) (before : Option Char) :
    ∃ c ∈ a, behind before a = some c := by
  induction a generalizing before with
  | nil => exact absurd rfl h
  | cons c a ih =>
    by_cases ha : a = []
    · subst ha
      exact ⟨c, List.mem_cons_self .., rfl⟩
    · obtain ⟨d, hd, hb⟩ := ih ha (some c)
      exact ⟨d, List.mem_cons_of_mem c hd, hb⟩

/-- No match starts in a stretch that `s` follows. -/
def Barren (p : Pattern) : Option Char → List Char → List Char → Prop
  | _, [], _ => True
  | before, c :: a, s => p.hit? before (c :: (a ++ s)) = none ∧ Barren p (some c) a s

theorem barren_append {b : List Char} (ha : Barren p before a (b ++ s))
    (hb : Barren p (behind before a) b s) : Barren p before (a ++ b) s := by
  induction a generalizing before with
  | nil => exact hb
  | cons c a ih =>
    rw [List.cons_append, Barren, List.append_assoc]
    exact ⟨ha.1, ih ha.2 hb⟩

/-- A stretch of characters of one class is barren if no match starts at its front, and if none
starts right behind a character of the class at which none starts. -/
theorem barren_of_class {q : Char → Bool}
    (next : ∀ before c d s, q c = true → q d = true → p.hit? before (c :: d :: s) = none →
      p.hit? (some c) (d :: s) = none)
    (ha : ∀ c ∈ a, q c = true) (front : p.hit? before (a ++ s) = none) :
    Barren p before a s := by
  induction a generalizing before with
  | nil => trivial
  | cons c a ih =>
    refine ⟨front, ?_⟩
    cases a with
    | nil => trivial
    | cons d a =>
      -- what holds at the front holds at the second character, which is the next front
      refine ih (fun e he => ha e (List.mem_cons_of_mem c he)) ?_
      exact next before c d (a ++ s) (ha c (by simp)) (ha d (by simp)) front

/-- A stretch is barren if no end of it starts a match, whatever stands before. -/
theorem barren_of_isSuffix (h : ∀ before y, y ≠ [] → y <:+ a → p.hit? before (y ++ s) = none) :
    Barren p before a s := by
  induction a generalizing before with
  | nil => trivial
  | cons c a ih =>
    exact ⟨h before (c :: a) nofun List.suffix_rfl,
      ih fun b y hy hs => h b y hy (hs.trans (List.suffix_cons c a))⟩

/-! ## The first match -/

theorem searchFrom_append (h : Barren p before a s) (position : Nat) :
    searchFrom p before position (a ++ s) =
      searchFrom p (behind before a) (position + a.length) s := by
  induction a generalizing before position with
  | nil => rfl
  | cons c a ih =>
    rw [List.cons_append, searchFrom, h.1]
    dsimp only
    rw [ih h.2, behind_cons, List.length_cons, Nat.add_assoc, Nat.add_comm 1]

theorem searchFrom_barren (h : Barren p before s []) (position : Nat) :
    searchFrom p before position s = none := by
  rw [← List.append_nil s, searchFrom_append h, searchFrom]

theorem searchFrom_hit {h : Hit} (hs : s ≠ []) (hh : p.hit? before s = some h) (position : Nat) :
    searchFrom p before position s = some (.ofHit position h) := by
  cases s with
  | nil => exact absurd rfl hs
  | cons c s => rw [searchFrom, hh]

/-! ## All matches -/

theorem findFrom_append (h : Barren p before a s) (position : Nat) :
    findFrom p 0 before position (a ++ s) =
      findFrom p 0 (behind before a) (position + a.length) s := by
  induction a generalizing before position with
  | nil => rfl
  | cons c a ih =>
    rw [List.cons_append, findFrom, h.1]
    dsimp only
    rw [ih h.2, behind_cons, List.length_cons, Nat.add_assoc, Nat.add_comm 1]

theorem findFrom_barren (h : Barren p before s []) (position : Nat) :
    findFrom p 0 before position s = [] := by
  rw [← List.append_nil s, findFrom_append h, findFrom]

theorem findFrom_skip (p : Pattern) (before : Option Char) (position : Nat) (a s : List Char) :
    findFrom p a.length before position (a ++ s) =
      findFrom p 0 (behind before a) (position + a.length) s := by
  induction a generalizing before position with
  | nil => rfl
  | cons c a ih =>
    rw [List.cons_append, List.length_cons, findFrom, ih, behind_cons, Nat.add_assoc,
      Nat.add_comm 1]

theorem findFrom_hit {h : Hit} (ht : h.text ≠ []) (hh : p.hit? before (h.text ++ s) = some h)
    (position : Nat) :
    findFrom p 0 before position (h.text ++ s) =
      .ofHit position h :: findFrom p 0 (behind before h.text) (position + h.text.length) s := by
  obtain ⟨text, groups⟩ := h
  cases text with
  | nil => exact absurd rfl ht
  | cons c text =>
    dsimp only at hh ⊢
    rw [List.cons_append] at hh ⊢
    -- the first character is read with the match, the others are skipped
    rw [findFrom, hh]
    dsimp only
    rw [List.length_cons, Nat.add_sub_cancel, findFrom_skip, behind_cons, Nat.add_assoc,
      Nat.add_comm 1]

/-! ## Pieces -/

theorem cutFrom_append (h : Barren p before a s) :
    cutFrom p 0 before (a ++ s) = (cutFrom p 0 (behind before a) s).modifyHead (a ++ ·) := by
  induction a generalizing before with
  | nil =>
    cases hc : cutFrom p 0 before s <;> simp [hc]
  | cons c a ih =>
    rw [List.cons_append, cutFrom, h.1]
    dsimp only
    rw [ih h.2, List.modifyHead_modifyHead]
    rfl

theorem cutFrom_barren (h : Barren p before s []) : cutFrom p 0 before s = [s] := by
  have hc := cutFrom_append h
  rwa [List.append_nil, cutFrom, List.modifyHead_cons, List.append_nil] at hc

theorem cutFrom_skip (p : Pattern) (before : Option Char) (a s : List Char) :
    cutFrom p a.length before (a ++ s) = cutFrom p 0 (behind before a) s := by
  induction a generalizing before with
  | nil => rfl
  | cons c a ih => exact ih (some c)

theorem cutFrom_hit {h : Hit} (ht : h.text ≠ []) (hh : p.hit? before (h.text ++ s) = some h) :
    cutFrom p 0 before (h.text ++ s) = [] :: cutFrom p 0 (behind before h.text) s := by
  obtain ⟨text, groups⟩ := h
  cases text with
  | nil => exact absurd rfl ht
  | cons c text =>
    dsimp only at hh ⊢
    rw [List.cons_append] at hh ⊢
    rw [cutFrom, hh]
    dsimp only
    rw [List.length_cons, Nat.add_sub_cancel, cutFrom_skip, behind_cons]

end HdlReview.Scan
