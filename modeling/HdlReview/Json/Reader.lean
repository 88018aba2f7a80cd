import HdlReview.Json.Token
import HdlReview.Keyed

/-!
# Reading data texts

The reader is a machine over the tokens. Its state says what may come next and holds the lists and
objects that are still open, the innermost first. The first token that does not fit stops it with
a complaint about what was expected and where; at the end of the text the position is the end. So
does a list or object with too many others around it. Of several fields with one name the last value
counts.

## Main definitions

* `Context`: the open lists and objects around a value
* `State`, `State.step`, `State.finish`: the machine
* `readSpelled spell halves digits levels s`: the value of a data text, or the complaint, with its
  texts spelled and under limits for the digits of an integer and for the levels
* `readRaw levels t`: the value of a data text with the letters of its texts, as requests are read
* `readUnder digits levels s`, `readWithin limit s`, `read s`: the value of a data text with plain
  texts, under both limits, with the usual limit for digits, and without limits
-/

namespace HdlReview.Json

open HdlReview.Decimal HdlReview.Text

/-- What surrounds a value that is about to be read. -/
inductive Context (τ : Type := String) where
  /-- Nothing. -/
  | top
  /-- A list with the items read so far, the last first. -/
  | inList (items : List (Value τ)) (outer : Context τ)
  /-- An object with the fields read so far, and the name of the value. -/
  | inObject (fields : Fields τ) (name : τ) (outer : Context τ)
deriving Repr

/-- What the reader expects next. -/
inductive State (τ : Type := String) where
  /-- A value. -/
  | value (context : Context τ)
  /-- The first item of a list, or its end. -/
  | firstItem (outer : Context τ)
  /-- The first name of an object, or its end. -/
  | firstName (outer : Context τ)
  /-- A name. -/
  | name (fields : Fields τ) (outer : Context τ)
  /-- The colon after a name. -/
  | colon (fields : Fields τ) (name : τ) (outer : Context τ)
  /-- A comma after an item, or the end of the list. -/
  | afterItem (items : List (Value τ)) (outer : Context τ)
  /-- A comma after a field, or the end of the object. -/
  | afterField (fields : Fields τ) (outer : Context τ)
  /-- The end of the text. -/
  | done (v : Value τ)
deriving Repr

variable {τ : Type}

/-- The number of open lists and objects. -/
def Context.depth : Context τ → Nat
  | top => 0
  | inList _ outer => outer.depth + 1
  | inObject _ _ outer => outer.depth + 1

variable [DecidableEq τ]

/-- The state after a whole value has been read. -/
def Context.deliver : Context τ → Value τ → State τ
  | top, v => .done v
  | inList items outer, v => .afterItem (v :: items) outer
  | inObject fields name outer, v => .afterField (Keyed.insert name v fields) outer

namespace State

/-- The state inside a list or object that has just been opened, unless that is one too many. -/
def enter (limit : Nat) (context : Context τ) (inside : State τ) (tooDeep : Malformed) :
    Except Malformed (State τ) :=
  if context.depth < limit then .ok inside else .error tooDeep

/-- A token where a value is expected. -/
def stepValue (limit : Nat) (context : Context τ) (l : Lexeme τ) : Except Malformed (State τ) :=
  match l.token with
  | .openObject => enter limit context (.firstName context) ⟨.objectTooDeep, l.position⟩
  | .openList => enter limit context (.firstItem context) ⟨.listTooDeep, l.position⟩
  | .text s => .ok (context.deliver (.str s))
  | .literal v => .ok (context.deliver v)
  | .brokenText m => .error m
  | .longInteger => .error ⟨.longInteger, l.position⟩
  | _ => .error ⟨.expectingValue, l.position⟩

/-- A token where a name is expected. -/
def stepName (fields : Fields τ) (outer : Context τ) (l : Lexeme τ) :
    Except Malformed (State τ) :=
  match l.token with
  | .text s => .ok (.colon fields s outer)
  | .brokenText m => .error m
  | _ => .error ⟨.expectingName, l.position⟩

/-- One step of the reader. -/
def step (limit : Nat) (state : State τ) (l : Lexeme τ) : Except Malformed (State τ) :=
  match state with
  | value context => stepValue limit context l
  | firstItem outer =>
    match l.token with
    | .closeList => .ok (outer.deliver (.list []))
    | _ => stepValue limit (.inList [] outer) l
  | firstName outer =>
    match l.token with
    | .closeObject => .ok (outer.deliver (.obj []))
    | _ => stepName [] outer l
  | name fields outer => stepName fields outer l
  | colon fields n outer =>
    match l.token with
    | .colon => .ok (.value (.inObject fields n outer))
    | _ => .error ⟨.expectingColon, l.position⟩
  | afterItem items outer =>
    match l.token with
    | .comma => .ok (.value (.inList items outer))
    | .closeList => .ok (outer.deliver (.list items.reverse))
    | _ => .error ⟨.expectingComma, l.position⟩
  | afterField fields outer =>
    match l.token with
    | .comma => .ok (.name fields outer)
    | .closeObject => .ok (outer.deliver (.obj fields))
    | _ => .error ⟨.expectingComma, l.position⟩
  | done _ => .error ⟨.extraData, l.position⟩

/-- The outcome at the end of a text. -/
def finish (stop : Nat) : State τ → Except Malformed (Value τ)
  | value _ => .error ⟨.expectingValue, stop⟩
  | firstItem _ => .error ⟨.expectingValue, stop⟩
  | firstName _ => .error ⟨.expectingName, stop⟩
  | name .. => .error ⟨.expectingName, stop⟩
  | colon .. => .error ⟨.expectingColon, stop⟩
  | afterItem .. => .error ⟨.expectingComma, stop⟩
  | afterField .. => .error ⟨.expectingComma, stop⟩
  | done v => .ok v

/-- The state after a list of tokens. -/
def run (limit : Nat) : State τ → List (Lexeme τ) → Except Malformed (State τ)
  | state, [] => .ok state
  | state, l :: ls =>
    match state.step limit l with
    | .ok next => run limit next ls
    | .error m => .error m

end State

/-- **The value of a data text**, or the complaint about it: with its texts spelled, the lone halves
among its characters given, and under limits for the digits of an integer and for the levels. -/
def readSpelled (spell : RawText → τ) (halves : List (Nat × Nat)) (digits : Option Nat)
    (levels : Nat) (s : List Char) : Except Malformed (Value τ) :=
  match State.run levels (.value .top) (lexemes spell halves digits s) with
  | .ok state => state.finish s.length
  | .error m => .error m

/-- **The value of a data text with the letters of its texts**, or the complaint about it. -/
def readRaw (levels : Nat) (t : RawText) : Except Malformed (Value RawText) :=
  readSpelled id (t.halvesFrom 0) (some digitLimit) levels (t.map Letter.plain)

/-- The value of a data text of characters under limits for the digits of an integer and for the
levels, or the complaint about it. -/
def readUnder (digits : Option Nat) (levels : Nat) (s : List Char) : Except Malformed Value :=
  readSpelled RawText.plain [] digits levels s

/-- **The value of a data text** whose lists and objects are at most `limit` deep and whose integers
have no more digits than are converted, or the complaint about it. -/
def readWithin (limit : Nat) (s : List Char) : Except Malformed Value :=
  readUnder (some digitLimit) limit s

/-- **The value of a data text**, or the complaint about it. There are never more levels than
characters. -/
def read (s : List Char) : Except Malformed Value :=
  readUnder none s.length s

end HdlReview.Json
