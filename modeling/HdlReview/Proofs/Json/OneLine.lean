import HdlReview.Json.Writer

/-!
# Written data are one line

Whatever a value holds, its text consists of printable ASCII characters. So it has no line feed, and
a text of several values, each with a line feed after it, can be taken apart at the line feeds.

## Main definitions

* `AsciiPrintable s`: the text consists of printable ASCII characters

## Main results

* `asciiPrintable_write`: every written value is such a text
* `newline_not_mem_write`: it has no line feed
-/

namespace HdlReview.Text

/-- A character of ASCII that is no control. -/
def isAsciiPrintable (c : Char) : Bool :=
  0x20 ≤ c.toNat && c.toNat ≤ 0x7E

/-- **A text of printable ASCII characters**. -/
def AsciiPrintable (s : List Char) : Prop :=
  ∀ c ∈ s, isAsciiPrintable c = true

variable {s t : List Char}

@[simp] theorem asciiPrintable_nil : AsciiPrintable [] := by
  simp [AsciiPrintable]

@[simp] theorem asciiPrintable_cons_iff {c : Char} :
    AsciiPrintable (c :: s) ↔ isAsciiPrintable c = true ∧ AsciiPrintable s :=
  List.forall_mem_cons

@[simp] theorem asciiPrintable_append_iff :
    AsciiPrintable (s ++ t) ↔ AsciiPrintable s ∧ AsciiPrintable t :=
  List.forall_mem_append

/-- Fixed texts are looked through. -/
theorem asciiPrintable_of_all (h : s.all isAsciiPrintable = true) : AsciiPrintable s :=
  List.all_eq_true.1 h

theorem AsciiPrintable.between {a b : Char} (h : AsciiPrintable s) (ha : isAsciiPrintable a = true)
    (hb : isAsciiPrintable b = true) : AsciiPrintable (a :: s ++ [b]) := by
  simp [h, ha, hb]

theorem AsciiPrintable.joined {a b : Char} (h : AsciiPrintable s) (ha : isAsciiPrintable a = true)
    (hb : isAsciiPrintable b = true) (h' : AsciiPrintable t) :
    AsciiPrintable (s ++ a :: b :: t) := by
  simp [h, ha, hb, h']

theorem asciiPrintable_ite {p : Prop} [Decidable p] (h : p → AsciiPrintable s)
    (h' : ¬ p → AsciiPrintable t) : AsciiPrintable (if p then s else t) := by
  split
  · next hp => exact h hp
  · next hp => exact h' hp

theorem AsciiPrintable.mono (h : AsciiPrintable s) (hsub : t ⊆ s) : AsciiPrintable t :=
  fun c hc => h c (hsub hc)

theorem asciiPrintable_flatMap {α : Type} {f : α → List Char} {as : List α}
    (h : ∀ a ∈ as, AsciiPrintable (f a)) : AsciiPrintable (as.flatMap f) := by
  intro c hc
  obtain ⟨a, ha, hca⟩ := List.mem_flatMap.1 hc
  exact h a ha c hca

theorem isAsciiPrintable_of_isDigit {c : Char} (h : c.isDigit = true) :
    isAsciiPrintable c = true := by
  obtain ⟨hlow, hhigh⟩ : '0'.toNat ≤ c.toNat ∧ c.toNat ≤ '9'.toNat := by
    simpa [Char.isDigit, UInt32.le_iff_toNat_le] using h
  have hzero : '0'.toNat = 0x30 := rfl
  have hnine : '9'.toNat = 0x39 := rfl
  simp only [isAsciiPrintable, Bool.and_eq_true, decide_eq_true_eq]
  omega

theorem isAsciiPrintable_hexDigit : ∀ {n : Nat}, n < 16 → isAsciiPrintable (hexDigit n) = true := by
  decide

theorem asciiPrintable_hexText (width n : Nat) : AsciiPrintable (hexText width n) := by
  induction width generalizing n with
  | zero => exact asciiPrintable_nil
  | succ width ih =>
    have hdigit : isAsciiPrintable (hexDigit (n % 16)) = true :=
      isAsciiPrintable_hexDigit (Nat.mod_lt n (by decide))
    simp [hexText, ih, hdigit]

end HdlReview.Text

namespace HdlReview.Decimal

open HdlReview.Text

variable {ds : List Char}

/-! ## Numbers -/

theorem asciiPrintable_digitsOf (n : Nat) : AsciiPrintable (digitsOf n) := by
  intro c hc
  exact isAsciiPrintable_of_isDigit (Nat.isDigit_of_mem_toDigits (by decide) (by decide) hc)

theorem asciiPrintable_zeros (n : Nat) : AsciiPrintable (zeros n) := by
  intro c hc
  obtain rfl := List.eq_of_mem_replicate hc
  rfl

theorem asciiPrintable_signText (negative : Bool) : AsciiPrintable (signText negative) := by
  cases negative <;> exact asciiPrintable_of_all rfl

theorem asciiPrintable_dropEndZeros (h : AsciiPrintable ds) :
    AsciiPrintable (dropEndZeros ds) := by
  apply h.mono
  intro c hc
  rw [dropEndZeros, List.mem_reverse] at hc
  exact List.mem_reverse.1 ((List.dropWhile_sublist _).subset hc)

theorem asciiPrintable_exponentText (p : Int) : AsciiPrintable (exponentText p) := by
  have hsign : isAsciiPrintable (if p < 0 then '-' else '+') = true := by split <;> rfl
  rw [exponentText, asciiPrintable_append_iff, asciiPrintable_cons_iff, asciiPrintable_cons_iff]
  exact ⟨⟨rfl, hsign, asciiPrintable_zeros _⟩, asciiPrintable_digitsOf _⟩

theorem asciiPrintable_scientific (h : AsciiPrintable ds) (p : Int) :
    AsciiPrintable (scientific ds p) := by
  have hexponent := asciiPrintable_exponentText p
  cases ds with
  | nil => exact asciiPrintable_nil
  | cons d rest =>
    obtain ⟨hd, hrest⟩ := asciiPrintable_cons_iff.1 h
    cases rest with
    | nil => exact asciiPrintable_cons_iff.2 ⟨hd, hexponent⟩
    | cons d' rest =>
      rw [scientific, asciiPrintable_append_iff, asciiPrintable_cons_iff, asciiPrintable_cons_iff]
      · exact ⟨⟨hd, rfl, hrest⟩, hexponent⟩
      · intro hnil
        cases hnil

theorem asciiPrintable_positionalLarge (h : AsciiPrintable ds) (p : Nat) :
    AsciiPrintable (positionalLarge ds p) := by
  have hpadded : AsciiPrintable (ds ++ zeros (p + 1 - ds.length)) :=
    asciiPrintable_append_iff.2 ⟨h, asciiPrintable_zeros _⟩
  rw [positionalLarge, asciiPrintable_append_iff, asciiPrintable_cons_iff]
  refine ⟨hpadded.mono (List.take_subset _ _), rfl, ?_⟩
  split
  · exact asciiPrintable_of_all rfl
  · exact hpadded.mono (List.drop_subset _ _)

theorem asciiPrintable_layOut (h : AsciiPrintable ds) (p : Int) :
    AsciiPrintable (layOut ds p) := by
  rw [layOut]
  split
  · exact asciiPrintable_scientific h p
  · split
    · exact asciiPrintable_positionalLarge h _
    · rw [positionalSmall, asciiPrintable_append_iff, asciiPrintable_cons_iff,
        asciiPrintable_cons_iff]
      exact ⟨⟨rfl, rfl, asciiPrintable_zeros _⟩, h⟩

theorem asciiPrintable_magnitudeText (m : Nat) (e : Int) :
    AsciiPrintable (Double.magnitudeText m e) := by
  rw [Double.magnitudeText]
  split
  · exact asciiPrintable_of_all rfl
  · exact asciiPrintable_layOut (asciiPrintable_dropEndZeros (asciiPrintable_digitsOf _)) _

end HdlReview.Decimal

namespace HdlReview.Json

open HdlReview.Decimal HdlReview.Text

/-! ## Texts -/

theorem asciiPrintable_unitEscape (n : Nat) : AsciiPrintable (unitEscape n) := by
  have hfront : AsciiPrintable ['\\', 'u'] := asciiPrintable_of_all rfl
  exact asciiPrintable_append_iff.2 ⟨hfront, asciiPrintable_hexText 4 n⟩

/-- What is not in the printable range has an escape that is. -/
theorem asciiPrintable_escapeChar (c : Char) : AsciiPrintable (escapeChar c) := by
  unfold escapeChar
  -- seven characters have short escapes; the others are in the range or are written by their units
  iterate 7 refine asciiPrintable_ite (fun _ => asciiPrintable_of_all rfl) fun _ => ?_
  apply asciiPrintable_ite
  · intro h
    exact asciiPrintable_cons_iff.2 ⟨h, asciiPrintable_nil⟩
  · intro _
    apply asciiPrintable_ite
    · intro _
      exact asciiPrintable_unitEscape _
    · intro _
      exact asciiPrintable_append_iff.2
        ⟨asciiPrintable_unitEscape _, asciiPrintable_unitEscape _⟩

theorem asciiPrintable_writeText (s : String) : AsciiPrintable (writeText s) := by
  have hinside : AsciiPrintable (s.toList.flatMap escapeChar) :=
    asciiPrintable_flatMap fun c _ => asciiPrintable_escapeChar c
  exact hinside.between rfl rfl

theorem asciiPrintable_writeDouble (x : Double) : AsciiPrintable (writeDouble x) := by
  cases x with
  | nan => exact asciiPrintable_of_all rfl
  | inf negative =>
    have hword : AsciiPrintable "Infinity".toList := asciiPrintable_of_all rfl
    exact asciiPrintable_append_iff.2 ⟨asciiPrintable_signText negative, hword⟩
  | finite negative m e =>
    simp [writeDouble, Double.text, asciiPrintable_signText, asciiPrintable_magnitudeText]

theorem asciiPrintable_intText (n : Int) : AsciiPrintable (intText n).toList := by
  simp [intText, asciiPrintable_signText, asciiPrintable_digitsOf]

/-! ## Values -/

mutual

/-- **The text of a value** consists of printable ASCII characters. -/
theorem asciiPrintable_write : ∀ v : Value, AsciiPrintable (write v)
  | .null => asciiPrintable_of_all rfl
  | .bool b => by cases b <;> exact asciiPrintable_of_all rfl
  | .int n => asciiPrintable_intText n
  | .float x => asciiPrintable_writeDouble x
  | .str s => asciiPrintable_writeText s
  | .list items => (asciiPrintable_writeItems items).between rfl rfl
  | .obj fields => (asciiPrintable_writeFields fields).between rfl rfl

theorem asciiPrintable_writeItems : ∀ items : List Value, AsciiPrintable (writeItems items)
  | [] => asciiPrintable_nil
  | [v] => asciiPrintable_write v
  | v :: w :: items =>
    (asciiPrintable_write v).joined rfl rfl (asciiPrintable_writeItems (w :: items))

theorem asciiPrintable_writeFields : ∀ fields : Fields, AsciiPrintable (writeFields fields)
  | [] => asciiPrintable_nil
  | [(n, v)] => (asciiPrintable_writeText n).joined rfl rfl (asciiPrintable_write v)
  | (n, v) :: f :: fields => by
    have hfield : AsciiPrintable (writeText n ++ ':' :: ' ' :: write v) :=
      (asciiPrintable_writeText n).joined rfl rfl (asciiPrintable_write v)
    exact hfield.joined rfl rfl (asciiPrintable_writeFields (f :: fields))

end

/-- **A written value is one line**. -/
theorem newline_not_mem_write (v : Value) : '\n' ∉ write v := by
  intro h
  exact absurd (asciiPrintable_write v '\n' h) (by decide)

end HdlReview.Json
