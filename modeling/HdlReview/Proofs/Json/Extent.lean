import HdlReview.Json.Reader
import Mathlib.Logic.Basic

/-!
# How long the texts of a data text are

Nothing that is read is longer than what it was read from. Decoding makes at most one letter of each
octet, and each letter of a text takes at least one character of the data text. The texts of a value
are the texts of tokens, for the reader makes none of its own; so none is longer than the data text.

## Main definitions

* `Value.EachText P v`: all texts of a value that are not names satisfy a condition
* `Token.EachText`, `Context.EachText`, `State.EachText`: the same of what the reader handles

## Main results

* `length_decodeText?_le`: the number of letters of some octets
* `State.EachText.step`, `State.EachText.run`: the reader makes no texts of its own
* `eachText_readRaw`: the texts of a value that was read
-/

namespace HdlReview.Text

/-! ## Letters of octets -/

theorem length_readOctets_le (bs : List Nat) : (readOctets bs).length ≤ bs.length := by
  fun_induction readOctets bs with
  | case1 => exact Nat.le_refl 0
  | case2 b bs ih => exact Nat.succ_le_succ (Nat.le_trans ih (length_readOctet b bs))

theorem length_groupsFrom?_le {size : Nat} {group bs : List Nat} {groups : List (List Nat)}
    (h : groupsFrom? size group bs = some groups) : groups.length ≤ bs.length := by
  induction bs generalizing group groups with
  | nil =>
    cases group with
    | nil =>
      obtain rfl := Option.some.inj h
      exact Nat.le_refl 0
    | cons b group => cases h
  | cons b bs ih =>
    rw [groupsFrom?] at h
    split at h
    · exact Nat.le_succ_of_le (ih h)
    · obtain ⟨rest, hrest, rfl⟩ := Option.map_eq_some_iff.1 h
      exact Nat.succ_le_succ (ih hrest)

theorem length_unitsOf?_le {order : ByteOrder} {size : Nat} {bs ns : List Nat}
    (h : unitsOf? order size bs = some ns) : ns.length ≤ bs.length := by
  obtain ⟨groups, hgroups, rfl⟩ := Option.map_eq_some_iff.1 h
  rw [List.length_map]
  exact length_groupsFrom?_le hgroups

theorem length_joinPairs_le (ns : List Nat) : (joinPairs ns).length ≤ ns.length := by
  fun_induction joinPairs ns with
  | case1 high low ns _ ih => exact Nat.succ_le_succ (Nat.le_succ_of_le ih)
  | case2 high low ns _ ih => exact Nat.succ_le_succ ih
  | case3 n => exact Nat.le_refl 1
  | case4 => exact Nat.le_refl 0

theorem length_decode?_le {e : Encoding} {bs : List Nat} {t : RawText}
    (h : e.decode? bs = some t) : t.length ≤ bs.length := by
  cases e with
  | utf8 =>
    obtain rfl := Option.some.inj h
    rw [List.length_map]
    exact length_readOctets_le bs
  | utf16 order =>
    obtain ⟨ns, hns, rfl⟩ := Option.map_eq_some_iff.1 h
    exact Nat.le_trans (length_joinPairs_le ns) (length_unitsOf?_le hns)
  | utf32 order =>
    obtain ⟨ns, hns, hletters⟩ := Option.bind_eq_some_iff.1 h
    rw [lettersOf?] at hletters
    split at hletters
    · obtain rfl := Option.some.inj hletters
      rw [List.length_map]
      exact length_unitsOf?_le hns
    · cases hletters

/-- **The letters of some octets** are not more than the octets. -/
theorem length_decodeText?_le {bs : List Nat} {t : RawText} (h : decodeText? bs = some t) :
    t.length ≤ bs.length := by
  rw [decodeText?.eq_def] at h
  split at h
  · exact Nat.le_trans (length_decode?_le h) (Nat.le_add_right _ 3)
  · exact length_decode?_le h

end HdlReview.Text

namespace HdlReview.Json

open HdlReview.Text

variable {τ : Type} {P : τ → Prop} {spell : RawText → τ} {halves : List (Nat × Nat)}
  {digits : Option Nat} {limit : Nat}

/-! ## Texts of tokens -/

/-- One more code unit makes at most one more letter. -/
theorem length_flush_pushUnit_le (high : Option Nat) (acc : RawText) (n : Nat) :
    (flush (pushUnit high acc n).1 (pushUnit high acc n).2).length ≤
      (flush high acc).length + 1 := by
  rw [pushUnit.eq_def]
  split
  · cases high <;> simp [flush]
  · split
    · exact Nat.le_refl _
    · exact Nat.le_refl _

/-- **A text has no more letters** than there were characters to read, beside those read before. -/
theorem length_readText_le {start position stop : Nat} {high : Option Nat} {acc letters : RawText}
    {s : List Char} (h : readText halves start position high acc s = .ok (letters, stop)) :
    letters.length ≤ (flush high acc).length + s.length := by
  fun_induction readText halves start position high acc s with
  | case2 position high acc rest =>
    obtain ⟨rfl, -⟩ := Prod.mk.inj (Except.ok.inj h)
    rw [List.length_reverse]
    exact Nat.le_add_right _ _
  | case6 position high acc a b c d s n _ _ ih =>
    have hletters := ih h
    have hunit := length_flush_pushUnit_le high acc n
    simp only [List.length_cons]
    omega
  | case9 position high acc e s _ _ c _ ih =>
    have hletters := ih h
    simp only [flush, List.length_cons] at hletters ⊢
    omega
  | case11 position high acc c s _ _ _ _ _ _ ih =>
    have hletters := ih h
    simp only [flush, List.length_cons] at hletters ⊢
    omega
  | _ => cases h

/-! ## Values -/

/-- **All texts of a value satisfy a condition**, apart from names. -/
inductive Value.EachText (P : τ → Prop) : Value τ → Prop
  | null : EachText P .null
  | bool (b : Bool) : EachText P (.bool b)
  | int (n : Int) : EachText P (.int n)
  | float (x : Decimal.Double) : EachText P (.float x)
  | str {s : τ} : P s → EachText P (.str s)
  | list {items : List (Value τ)} : (∀ v ∈ items, EachText P v) → EachText P (.list items)
  | obj {fields : Fields τ} : (∀ f ∈ fields, EachText P f.2) → EachText P (.obj fields)

theorem Value.EachText.mono {Q : τ → Prop} (hPQ : ∀ s, P s → Q s) {v : Value τ}
    (h : v.EachText P) : v.EachText Q := by
  induction h with
  | null => exact .null
  | bool b => exact .bool b
  | int n => exact .int n
  | float x => exact .float x
  | str hs => exact .str (hPQ _ hs)
  | list _ ih => exact .list ih
  | obj _ ih => exact .obj ih

/-- All texts of a token satisfy a condition. -/
inductive Token.EachText (P : τ → Prop) : Token τ → Prop
  | text {s : τ} : P s → EachText P (.text s)
  | literal {v : Value τ} : v.EachText P → EachText P (.literal v)
  | openObject : EachText P .openObject
  | closeObject : EachText P .closeObject
  | openList : EachText P .openList
  | closeList : EachText P .closeList
  | comma : EachText P .comma
  | colon : EachText P .colon
  | brokenText (m : Malformed) : EachText P (.brokenText m)
  | longInteger : EachText P .longInteger
  | unknown : EachText P .unknown

theorem eachText_readLiteral? {s : List Char} {token : Token τ} {n : Nat}
    (h : readLiteral? s = some (token, n)) : token.EachText P := by
  have hliterals : ∀ entry ∈ (literals : List (List Char × Value τ)), entry.2.EachText P := by
    intro entry hentry
    simp only [literals, List.mem_cons, List.not_mem_nil, or_false] at hentry
    rcases hentry with rfl | rfl | rfl | rfl | rfl | rfl <;> constructor
  obtain ⟨⟨w, v⟩, hm, hentry⟩ := List.exists_of_findSome?_eq_some h
  dsimp only at hentry
  split at hentry
  · obtain ⟨rfl, -⟩ := Prod.mk.inj (Option.some.inj hentry)
    exact .literal (hliterals (w, v) hm)
  · cases hentry

theorem eachText_readNumber? {s : List Char} {token : Token τ} {n : Nat}
    (h : readNumber? digits s = some (token, n)) : token.EachText P := by
  rw [readNumber?] at h
  rcases ite_eq_iff.1 h with ⟨-, hnone⟩ | ⟨-, hsome⟩
  · cases hnone
  · rcases ite_eq_iff.1 hsome with ⟨-, hinteger⟩ | ⟨-, hfloat⟩
    · rcases ite_eq_iff.1 hinteger with ⟨-, hlong⟩ | ⟨-, hint⟩
      · obtain ⟨rfl, -⟩ := Prod.mk.inj (Option.some.inj hlong)
        exact .longInteger
      · obtain ⟨rfl, -⟩ := Prod.mk.inj (Option.some.inj hint)
        exact .literal (.int _)
    · obtain ⟨rfl, -⟩ := Prod.mk.inj (Option.some.inj hfloat)
      exact .literal (.float _)

/-- **The text of a token** has no more letters than there are characters. -/
theorem eachText_tokenAt {s : List Char} (h : ∀ t : RawText, t.length ≤ s.length → P (spell t))
    (position : Nat) : (tokenAt spell halves digits position s).1.EachText P := by
  rw [tokenAt.eq_def]
  split
  · exact .openObject
  · exact .closeObject
  · exact .openList
  · exact .closeList
  · exact .comma
  · exact .colon
  · next t =>
    split
    · next letters stop hread =>
      refine .text (h letters (Nat.le_trans (length_readText_le hread) ?_))
      simp [flush]
    · exact .brokenText _
  · cases hliteral : readLiteral? s with
    | some x => exact eachText_readLiteral? hliteral
    | none =>
      cases hnumber : readNumber? digits s with
      | some x => exact eachText_readNumber? hnumber
      | none => exact .unknown

/-- **The texts of all tokens** have no more letters than there are characters. -/
theorem eachText_lexemesFrom {s : List Char}
    (h : ∀ t : RawText, t.length ≤ s.length → P (spell t)) (skip position : Nat) :
    ∀ l ∈ lexemesFrom spell halves digits skip position s, l.token.EachText P := by
  induction s generalizing skip position with
  | nil =>
    intro l hl
    rw [lexemesFrom] at hl
    cases hl
  | cons c s ih =>
    have hrest : ∀ t : RawText, t.length ≤ s.length → P (spell t) :=
      fun t ht => h t (Nat.le_succ_of_le ht)
    cases skip with
    | succ skip =>
      rw [lexemesFrom]
      exact ih hrest skip (position + 1)
    | zero =>
      rw [lexemesFrom]
      split
      · exact ih hrest 0 (position + 1)
      · intro l hl
        rcases List.mem_cons.1 hl with rfl | hl
        · exact eachText_tokenAt h position
        · exact ih hrest _ _ l hl

/-! ## The reader -/

/-- All texts that have been read around a value satisfy a condition. -/
inductive Context.EachText (P : τ → Prop) : Context τ → Prop
  | top : EachText P .top
  | inList {items : List (Value τ)} {outer : Context τ} : (∀ v ∈ items, v.EachText P) →
    EachText P outer → EachText P (.inList items outer)
  | inObject {fields : Fields τ} {name : τ} {outer : Context τ} :
    (∀ f ∈ fields, f.2.EachText P) → EachText P outer → EachText P (.inObject fields name outer)

/-- All texts that have been read satisfy a condition. -/
inductive State.EachText (P : τ → Prop) : State τ → Prop
  | value {context : Context τ} : context.EachText P → EachText P (.value context)
  | firstItem {outer : Context τ} : outer.EachText P → EachText P (.firstItem outer)
  | firstName {outer : Context τ} : outer.EachText P → EachText P (.firstName outer)
  | name {fields : Fields τ} {outer : Context τ} : (∀ f ∈ fields, f.2.EachText P) →
    outer.EachText P → EachText P (.name fields outer)
  | colon {fields : Fields τ} {name : τ} {outer : Context τ} : (∀ f ∈ fields, f.2.EachText P) →
    outer.EachText P → EachText P (.colon fields name outer)
  | afterItem {items : List (Value τ)} {outer : Context τ} : (∀ v ∈ items, v.EachText P) →
    outer.EachText P → EachText P (.afterItem items outer)
  | afterField {fields : Fields τ} {outer : Context τ} : (∀ f ∈ fields, f.2.EachText P) →
    outer.EachText P → EachText P (.afterField fields outer)
  | done {v : Value τ} : v.EachText P → EachText P (.done v)

variable {l : Lexeme τ} {state next : State τ}

namespace State

theorem eachText_enter {context : Context τ} {inside : State τ} {tooDeep : Malformed}
    (h : inside.EachText P) (hnext : enter limit context inside tooDeep = .ok next) :
    next.EachText P := by
  rw [enter] at hnext
  split at hnext
  · obtain rfl := Except.ok.inj hnext
    exact h
  · cases hnext

theorem eachText_stepName {fields : Fields τ} {outer : Context τ}
    (hfields : ∀ f ∈ fields, f.2.EachText P) (houter : outer.EachText P)
    (hnext : stepName fields outer l = .ok next) : next.EachText P := by
  rw [stepName.eq_def] at hnext
  split at hnext
  · obtain rfl := Except.ok.inj hnext
    exact .colon hfields houter
  · cases hnext
  · cases hnext

end State

variable [DecidableEq τ]

theorem Context.EachText.deliver {context : Context τ} {v : Value τ} (hc : context.EachText P)
    (hv : v.EachText P) : (context.deliver v).EachText P := by
  cases hc with
  | top => exact .done hv
  | inList hitems houter => exact .afterItem (List.forall_mem_cons.2 ⟨hv, hitems⟩) houter
  | inObject hfields houter =>
    refine .afterField (fun f hf => ?_) houter
    rcases Keyed.mem_of_mem_insert hf with rfl | hf
    · exact hv
    · exact hfields f hf

namespace State

theorem eachText_stepValue {context : Context τ} (hc : context.EachText P)
    (hl : l.token.EachText P) (hnext : stepValue limit context l = .ok next) :
    next.EachText P := by
  obtain ⟨position, token⟩ := l
  cases hl with
  | openObject => exact eachText_enter (.firstName hc) hnext
  | openList => exact eachText_enter (.firstItem hc) hnext
  | text hs =>
    obtain rfl := Except.ok.inj hnext
    exact hc.deliver (.str hs)
  | literal hv =>
    obtain rfl := Except.ok.inj hnext
    exact hc.deliver hv
  | _ => cases hnext

/-- **A step of the reader** makes no texts of its own. -/
theorem EachText.step (h : state.EachText P) (hl : l.token.EachText P)
    (hnext : state.step limit l = .ok next) : next.EachText P := by
  rw [State.step.eq_def] at hnext
  cases h with
  | value hc => exact eachText_stepValue hc hl hnext
  | firstItem houter =>
    dsimp only at hnext
    split at hnext
    · obtain rfl := Except.ok.inj hnext
      exact houter.deliver (.list (List.forall_mem_nil _))
    · exact eachText_stepValue (.inList (List.forall_mem_nil _) houter) hl hnext
  | firstName houter =>
    dsimp only at hnext
    split at hnext
    · obtain rfl := Except.ok.inj hnext
      exact houter.deliver (.obj (List.forall_mem_nil _))
    · exact eachText_stepName (List.forall_mem_nil _) houter hnext
  | name hfields houter => exact eachText_stepName hfields houter hnext
  | colon hfields houter =>
    dsimp only at hnext
    split at hnext
    · obtain rfl := Except.ok.inj hnext
      exact .value (.inObject hfields houter)
    · cases hnext
  | afterItem hitems houter =>
    dsimp only at hnext
    split at hnext
    · obtain rfl := Except.ok.inj hnext
      exact .value (.inList hitems houter)
    · obtain rfl := Except.ok.inj hnext
      exact houter.deliver (.list fun v hv => hitems v (List.mem_reverse.1 hv))
    · cases hnext
  | afterField hfields houter =>
    dsimp only at hnext
    split at hnext
    · obtain rfl := Except.ok.inj hnext
      exact .name hfields houter
    · obtain rfl := Except.ok.inj hnext
      exact houter.deliver (.obj hfields)
    · cases hnext
  | done hv => cases hnext

/-- **The reader** makes no texts of its own. -/
theorem EachText.run {ls : List (Lexeme τ)} (h : state.EachText P)
    (hls : ∀ l ∈ ls, l.token.EachText P) (hnext : state.run limit ls = .ok next) :
    next.EachText P := by
  induction ls generalizing state with
  | nil =>
    obtain rfl := Except.ok.inj hnext
    exact h
  | cons l ls ih =>
    rw [State.run] at hnext
    split at hnext
    · next mid hstep =>
      exact ih (h.step (hls l (List.mem_cons_self ..)) hstep)
        (fun l hl => hls l (List.mem_cons_of_mem _ hl)) hnext
    · cases hnext

end State

/-- **The texts of a value that was read** are not longer than what it was read from. -/
theorem eachText_readRaw {levels : Nat} {t : RawText} {v : Value RawText}
    (h : readRaw levels t = .ok v) : v.EachText fun s => s.length ≤ t.length := by
  have hlexemes : ∀ l ∈ lexemes id (t.halvesFrom 0) (some Decimal.digitLimit)
      (t.map Letter.plain), l.token.EachText fun s => s.length ≤ t.length := by
    refine eachText_lexemesFrom (fun s hs => ?_) 0 0
    rwa [List.length_map] at hs
  rw [readRaw, readSpelled] at h
  split at h
  · next state hrun =>
    have hstate := (State.EachText.value .top).run hlexemes hrun
    cases hstate with
    | done hv =>
      obtain rfl := Except.ok.inj h
      exact hv
    | _ => cases h
  · cases h

end HdlReview.Json
