import HdlReview.Json.Reader
import HdlReview.Proofs.Json.Tokens
import Mathlib.Data.Nat.Digits.Defs

/-!
# Objects read back

A written object of texts and numbers is read back field by field: each name and each value is one
token, and between them stand the marks that the reader expects. The names keep their order, since
none of them is there twice. Texts and integers come back as they were; a double comes back as a
double.

## Main definitions

* `ReadsAs digits v v'`: the text of `v` is one token, which is read as `v'`, under a limit for the
  digits of an integer

## Main results

* `readsAs_str`, `readsAs_int`, `exists_readsAs_float`: values of one token
* `readUnder_write_obj`: objects of such values
-/

namespace HdlReview.Json

open HdlReview.Decimal HdlReview.Text

variable {digits : Option Nat} {limit position : Nat} {context outer : Context}
  {s w rest : List Char} {v v' : Value}

/-! ## Tokens in a row -/

theorem lexemesFrom_skip (a s : List Char) :
    lexemesFrom RawText.plain [] digits a.length position (a ++ s) =
      lexemesFrom RawText.plain [] digits 0 (position + a.length) s := by
  induction a generalizing position with
  | nil => rfl
  | cons c a ih =>
    rw [List.length_cons, List.cons_append, lexemesFrom, ih, Nat.add_assoc, Nat.add_comm 1]

/-- **A token at the front** of a text comes first, and the others follow behind it. -/
theorem lexemesFrom_token {token : Token} (hw : ∃ c t, w = c :: t ∧ isGap c = false)
    (htoken : tokenAt RawText.plain [] digits position (w ++ s) = (token, w.length)) :
    lexemesFrom RawText.plain [] digits 0 position (w ++ s) =
      ⟨position, token⟩ :: lexemesFrom RawText.plain [] digits 0 (position + w.length) s := by
  obtain ⟨c, t, rfl, hc⟩ := hw
  rw [List.cons_append] at htoken ⊢
  simp only [lexemesFrom, hc, htoken, List.length_cons, Nat.add_sub_cancel, lexemesFrom_skip,
    Bool.false_eq_true, if_false, Nat.add_assoc, Nat.add_comm 1]

theorem lexemesFrom_space :
    lexemesFrom RawText.plain [] digits 0 position (' ' :: s) =
      lexemesFrom RawText.plain [] digits 0 (position + 1) s :=
  rfl

/-- A mark is a token of one character. -/
theorem lexemesFrom_mark (c : Char) (token : Token) (hc : isGap c = false)
    (htoken : tokenAt RawText.plain [] digits position (c :: s) = (token, 1)) :
    lexemesFrom RawText.plain [] digits 0 position (c :: s) =
      ⟨position, token⟩ :: lexemesFrom RawText.plain [] digits 0 (position + 1) s :=
  lexemesFrom_token (w := [c]) ⟨c, [], rfl, hc⟩ htoken

theorem tokenAt_plain (text : String) :
    tokenAt RawText.plain [] digits position (writeText text ++ rest) =
      (.text text, (writeText text).length) := by
  rw [tokenAt_writeText, RawText.plain_ofString]

theorem lexemesFrom_writeText (name : String) :
    lexemesFrom RawText.plain [] digits 0 position (writeText name ++ s) =
      ⟨position, .text name⟩ ::
        lexemesFrom RawText.plain [] digits 0 (position + (writeText name).length) s :=
  lexemesFrom_token ⟨'"', _, rfl, rfl⟩ (tokenAt_plain name)

theorem run_cons {state next : State} {l : Lexeme} {ls : List Lexeme}
    (hstep : state.step limit l = .ok next) : state.run limit (l :: ls) = next.run limit ls := by
  rw [State.run, hstep]

/-! ## Values of one token -/

/-- **A value whose text is one token** that delivers `v'` wherever a value is expected. -/
structure ReadsAs (digits : Option Nat) (v v' : Value) : Prop where
  starts : ∃ c t, write v = c :: t ∧ isGap c = false
  delivers : ∀ position rest, EndsNumber rest → ∃ token,
    tokenAt RawText.plain [] digits position (write v ++ rest) = (token, (write v).length) ∧
      ∀ limit context, State.stepValue limit context ⟨position, token⟩ = .ok (context.deliver v')

theorem readsAs_str (text : String) : ReadsAs digits (.str text) (.str text) where
  starts := ⟨'"', _, rfl, rfl⟩
  delivers := fun _ _ _ => ⟨.text text, tokenAt_plain text, fun _ _ => rfl⟩

theorem isGap_eq_false_of_isDigit {c : Char} (hc : c.isDigit = true) : isGap c = false := by
  have hne : ∀ k : Char, k.isDigit = false → c ≠ k := fun k hk => ne_of_isDigit hc hk
  simp [isGap, hne ' ' rfl, hne '\t' rfl, hne '\n' rfl, hne '\r' rfl]

/-- A numeral starts with its sign or with a digit. -/
theorem exists_text_eq_cons (n : Numeral) : ∃ c t, n.text = c :: t ∧ isGap c = false := by
  rw [Numeral.text]
  cases n.negative with
  | true => exact ⟨'-', _, rfl, rfl⟩
  | false =>
    obtain ⟨d, ds, hds⟩ := List.exists_cons_of_ne_nil n.whole_ne_nil
    have hd : d.isDigit = true := n.whole_digits d (by simp [hds])
    exact ⟨d, _, by rw [hds]; rfl, isGap_eq_false_of_isDigit hd⟩

theorem length_digitsOf {n count : Nat} (hcount : 0 < count) (hn : n < Nat.pow 10 count) :
    (digitsOf n).length ≤ count :=
  Nat.toDigits_length 10 n count hcount hn

/-- An integer that is written does not have too many digits to be read. -/
theorem length_whole_ofInt {k : Int} (hk : k.natAbs < longBound) :
    (Numeral.ofInt k).whole.length ≤ digitLimit := by
  unfold longBound at hk
  exact length_digitsOf (by decide) hk

theorem readsAs_int {k : Int} (hk : k.natAbs < longBound) :
    ReadsAs (some digitLimit) (.int k) (.int k) where
  starts := by
    rw [write, ← Numeral.text_ofInt]
    exact exists_text_eq_cons _
  delivers := fun _ _ hrest => by
    have hdigits : (some digitLimit).any (· < (Numeral.ofInt k).whole.length) = false := by
      simpa using length_whole_ofInt hk
    exact ⟨.literal (.int k), tokenAt_intText hdigits hrest, fun _ _ => rfl⟩

theorem exists_readsAs_float (digits : Option Nat) (x : Double) :
    ∃ y, ReadsAs digits (.float x) (.float y) := by
  obtain ⟨y, hy⟩ := @exists_tokenAt_writeDouble _ RawText.plain digits x
  refine ⟨y, ?_, fun position rest hrest => ⟨_, hy position rest hrest, fun _ _ => rfl⟩⟩
  cases x with
  | nan => exact ⟨'N', _, rfl, rfl⟩
  | inf negative =>
    cases negative with
    | true => exact ⟨'-', _, rfl, rfl⟩
    | false => exact ⟨'I', _, rfl, rfl⟩
  | finite negative m e =>
    obtain ⟨n, -, htext⟩ := exists_numeral_text negative m e
    change ∃ c t, (Double.finite negative m e).text.toList = c :: t ∧ isGap c = false
    rw [← htext]
    exact exists_text_eq_cons n

/-- **The reader at a value of one token**. -/
theorem ReadsAs.run (h : ReadsAs digits v v') (hrest : EndsNumber rest) :
    State.run limit (.value context)
        (lexemesFrom RawText.plain [] digits 0 position (write v ++ rest)) =
      State.run limit (context.deliver v')
        (lexemesFrom RawText.plain [] digits 0 (position + (write v).length) rest) := by
  obtain ⟨token, htoken, hstep⟩ := h.delivers position rest hrest
  rw [lexemesFrom_token h.starts htoken]
  exact run_cons (hstep limit context)

/-! ## Objects -/

/-- Fields of one name, the text of the first of which is read as the second. -/
def FieldReadsAs (digits : Option Nat) (f f' : String × Value) : Prop :=
  f.1 = f'.1 ∧ ReadsAs digits f.2 f'.2

theorem endsNumber_close (s : List Char) : EndsNumber ('}' :: s) := by
  rintro c ⟨⟩
  decide

theorem endsNumber_comma (s : List Char) : EndsNumber (',' :: s) := by
  rintro c ⟨⟩
  decide

/-- **The reader at a field** with a new name. -/
theorem run_field {f f' : String × Value} {done : Fields} (h : FieldReadsAs digits f f')
    (hnew : f.1 ∉ done.map (·.1)) (hrest : EndsNumber rest) :
    State.run limit (.name done outer)
        (lexemesFrom RawText.plain [] digits 0 position
          (writeText f.1 ++ ':' :: ' ' :: (write f.2 ++ rest))) =
      State.run limit (.afterField (done ++ [f']) outer)
        (lexemesFrom RawText.plain [] digits 0
          (position + (writeText f.1).length + 1 + 1 + (write f.2).length) rest) := by
  obtain ⟨n, v⟩ := f
  obtain ⟨n', v'⟩ := f'
  obtain ⟨rfl, hv⟩ : n = n' ∧ ReadsAs digits v v' := h
  rw [lexemesFrom_writeText, run_cons rfl, lexemesFrom_mark ':' .colon rfl rfl, run_cons rfl,
    lexemesFrom_space, ← Keyed.insert_of_not_mem hnew]
  exact hv.run hrest

theorem name_new {f : String × Value} {done fields : Fields}
    (hnames : ((done ++ f :: fields).map (·.1)).Nodup) : f.1 ∉ done.map (·.1) := by
  rw [List.map_append, List.map_cons, List.nodup_append] at hnames
  exact fun hmem => hnames.2.2 _ hmem _ (List.mem_cons_self ..) rfl

/-- **The reader at the fields of an object**, up to the closing mark. -/
theorem run_fields {f f' : String × Value} {fields fields' done : Fields}
    (hf : FieldReadsAs digits f f')
    (hfields : List.Forall₂ (FieldReadsAs digits) fields fields')
    (hnames : ((done ++ f :: fields).map (·.1)).Nodup) : ∃ next,
      State.run limit (.name done outer)
        (lexemesFrom RawText.plain [] digits 0 position
          (writeFields (f :: fields) ++ '}' :: rest)) =
      State.run limit (outer.deliver (.obj (done ++ f' :: fields')))
        (lexemesFrom RawText.plain [] digits 0 next rest) := by
  induction hfields generalizing f f' done position with
  | nil =>
    have hwrite : writeFields [f] ++ '}' :: rest =
        writeText f.1 ++ ':' :: ' ' :: (write f.2 ++ '}' :: rest) := by
      simp [writeFields]
    rw [hwrite, run_field hf (name_new hnames) (endsNumber_close rest),
      lexemesFrom_mark '}' .closeObject rfl rfl, run_cons rfl]
    exact ⟨_, rfl⟩
  | @cons g g' fields fields' hg hfields ih =>
    have hwrite : writeFields (f :: g :: fields) ++ '}' :: rest = writeText f.1 ++ ':' :: ' ' ::
        (write f.2 ++ ',' :: ' ' :: (writeFields (g :: fields) ++ '}' :: rest)) := by
      simp [writeFields]
    -- the field that was read is now the last of those that are done
    have hnames' : (((done ++ [f']) ++ g :: fields).map (·.1)).Nodup := by
      simpa [hf.1] using hnames
    rw [hwrite, run_field hf (name_new hnames) (endsNumber_comma _),
      lexemesFrom_mark ',' .comma rfl rfl, run_cons rfl, lexemesFrom_space,
      List.append_cons done f' (g' :: fields')]
    exact ih hg hnames'

/-- The first name of an object is read like any other. -/
theorem run_firstName (f : String × Value) (fields : Fields) :
    State.run limit (.firstName outer)
        (lexemesFrom RawText.plain [] digits 0 position (writeFields (f :: fields) ++ rest)) =
      State.run limit (.name [] outer)
        (lexemesFrom RawText.plain [] digits 0 position (writeFields (f :: fields) ++ rest)) := by
  obtain ⟨u, hu⟩ : ∃ u, writeFields (f :: fields) ++ rest = writeText f.1 ++ u := by
    cases fields with
    | nil => exact ⟨_, List.append_assoc ..⟩
    | cons g fields => exact ⟨_, by rw [writeFields, List.append_assoc, List.append_assoc]⟩
  rw [hu, lexemesFrom_writeText]
  rfl

/-- **An object of values of one token is read back**, with its fields in order, under any limit for
the levels but zero. -/
theorem readUnder_write_obj {fields fields' : Fields} (hlimit : 0 < limit)
    (hfields : List.Forall₂ (FieldReadsAs digits) fields fields')
    (hnames : (fields.map (·.1)).Nodup) :
    readUnder digits limit (write (.obj fields)) = .ok (.obj fields') := by
  have hrun : State.run limit (.value .top)
      (lexemes RawText.plain [] digits (write (.obj fields))) = .ok (.done (.obj fields')) := by
    have hopen : (State.value .top : State).step limit ⟨0, .openObject⟩ = .ok (.firstName .top) :=
      if_pos hlimit
    rw [write, lexemes, List.cons_append, lexemesFrom_mark '{' .openObject rfl rfl, run_cons hopen]
    cases hfields with
    | nil => rfl
    | @cons f f' fields fields' hf hfields =>
      obtain ⟨next, hnext⟩ : ∃ next, State.run limit (.name [] .top)
          (lexemesFrom RawText.plain [] digits 0 (0 + 1) (writeFields (f :: fields) ++ ['}'])) =
            State.run limit (Context.top.deliver (.obj ([] ++ f' :: fields')))
              (lexemesFrom RawText.plain [] digits 0 next []) := run_fields hf hfields hnames
      rw [run_firstName, hnext]
      rfl
  rw [readUnder, readSpelled, hrun]
  rfl

end HdlReview.Json
