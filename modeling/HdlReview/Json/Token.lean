import HdlReview.Decimal.Reading
import HdlReview.Json.Value
import HdlReview.Text.Encoding
import HdlReview.Text.Hex

/-!
# Tokens of a data text

A data text is cut into marks, texts, literals and numbers, each with the position it starts at.
A number is the longest one that can be read, so `01` is the number zero followed by the number
one. A text that breaks off or holds a bad escape is a broken token that carries its complaint;
whether the complaint is heard depends on what is expected there. Lone halves of surrogate pairs in
a text come from escapes, or they stand in the data text itself, where their positions are known.

## Main definitions

* `Malformed`: a complaint and its position
* `Token`, `Lexeme`: a token, and a token with its position
* `readText`: the inside of a text up to its closing quotation mark
* `readNumber? digits`: the longest number at the front
* `lexemes spell halves digits s`: the tokens of a text in order

The texts of tokens are what `spell` makes of their letters. Where there is a limit `digits`,
integers with more digits are not converted.
-/

namespace HdlReview.Json

open HdlReview.Decimal HdlReview.Text

/-- Why a data text cannot be read. -/
inductive Complaint where
  | expectingValue
  | expectingName
  | expectingColon
  | expectingComma
  | extraData
  | unterminatedText
  | controlCharacter
  | badEscape
  | badUnicodeEscape
  | longInteger
  | listTooDeep
  | objectTooDeep
deriving DecidableEq, Repr

/-- The wording of a complaint. -/
def Complaint.message : Complaint → String
  | expectingValue => "Expecting value"
  | expectingName => "Expecting property name enclosed in double quotes"
  | expectingColon => "Expecting ':' delimiter"
  | expectingComma => "Expecting ',' delimiter"
  | extraData => "Extra data"
  | unterminatedText => "Unterminated string starting at"
  | controlCharacter => "Invalid control character at"
  | badEscape => "Invalid \\escape"
  | badUnicodeEscape => "Invalid \\uXXXX escape"
  | longInteger => "Exceeds the limit for integer string conversion"
  | listTooDeep =>
    "maximum recursion depth exceeded while decoding a JSON array from a unicode string"
  | objectTooDeep =>
    "maximum recursion depth exceeded while decoding a JSON object from a unicode string"

/-- A complaint with the position, in characters, that it is about. -/
structure Malformed where
  complaint : Complaint
  position : Nat
deriving DecidableEq, Repr

/-- A token of a data text. -/
inductive Token (τ : Type := String) where
  | openObject
  | closeObject
  | openList
  | closeList
  | comma
  | colon
  /-- A text, which may be a value or a name. -/
  | text (s : τ)
  /-- A literal or a number. -/
  | literal (v : Value τ)
  /-- A text that cannot be read. -/
  | brokenText (m : Malformed)
  /-- An integer with more digits than are converted. -/
  | longInteger
  /-- A character that starts no token. -/
  | unknown
deriving Repr

/-- A token with the position of its first character. -/
structure Lexeme (τ : Type := String) where
  position : Nat
  token : Token τ
deriving Repr

variable {τ : Type}

/-! ## Texts -/

/-- The letters read so far, the last first, with a pending first half of a pair left alone. -/
def flush (high : Option Nat) (acc : RawText) : RawText :=
  match high with
  | some h => .half h :: acc
  | none => acc

/-- One more code unit from an escape: a first half waits for its second half. -/
def pushUnit (high : Option Nat) (acc : RawText) (n : Nat) : Option Nat × RawText :=
  if isLowHalf n then
    match high with
    | some h => (none, .char (pairChar h n) :: acc)
    | none => (none, .half n :: acc)
  else if isHighHalf n then (some n, flush high acc)
  else (none, .char (Char.ofNat n) :: flush high acc)

/-- The letter of a data text with a character at a position, where it may be a lone half. -/
def letterAt (halves : List (Nat × Nat)) (position : Nat) (c : Char) : Letter :=
  match halves.lookup position with
  | some unit => .half unit
  | none => .char c

/-- The character that a short escape stands for. -/
def shortEscape? : Char → Option Char
  | '"' => some '"'
  | '\\' => some '\\'
  | '/' => some '/'
  | 'b' => some '\x08'
  | 'f' => some '\x0c'
  | 'n' => some '\n'
  | 'r' => some '\r'
  | 't' => some '\t'
  | _ => none

/-- The inside of the text that starts at `start`, read from `position` on: its letters and the
position after the closing mark. A numeric escape has four digits and is not the last thing in the
data. Only escapes are joined to pairs. -/
def readText (halves : List (Nat × Nat)) (start : Nat) : Nat → Option Nat → RawText → List Char →
    Except Malformed (RawText × Nat)
  | _, _, _, [] => .error ⟨.unterminatedText, start⟩
  | position, high, acc, '"' :: _ => .ok ((flush high acc).reverse, position + 1)
  | _, _, _, ['\\'] => .error ⟨.unterminatedText, start⟩
  | position, high, acc, '\\' :: 'u' :: a :: b :: c :: d :: s =>
    match hexNumber? [a, b, c, d] with
    | none => .error ⟨.badUnicodeEscape, position + 1⟩
    | some n =>
      if s.isEmpty then .error ⟨.badUnicodeEscape, position + 1⟩
      else readText halves start (position + 6) (pushUnit high acc n).1 (pushUnit high acc n).2 s
  | position, _, _, '\\' :: 'u' :: _ => .error ⟨.badUnicodeEscape, position + 1⟩
  | position, high, acc, '\\' :: e :: s =>
    match shortEscape? e with
    | none => .error ⟨.badEscape, position⟩
    | some c => readText halves start (position + 2) none (.char c :: flush high acc) s
  | position, high, acc, c :: s =>
    if c.toNat < 0x20 then .error ⟨.controlCharacter, position⟩
    else
      readText halves start (position + 1) none (letterAt halves position c :: flush high acc) s

/-! ## Numbers -/

/-- The digits before the point: a single zero, or digits that start with none. -/
def wholeDigits : List Char → List Char
  | '0' :: _ => ['0']
  | s => s.takeWhile Char.isDigit

/-- The digits after a point, if the text goes on with a point and a digit. -/
def fractionDigits : List Char → List Char
  | '.' :: s => s.takeWhile Char.isDigit
  | _ => []

/-- The exponent that the text goes on with, and the number of characters it takes. -/
def exponentAt? : List Char → Option (Int × Nat)
  | c :: s =>
    if c == 'e' || c == 'E' then
      let (negative, t) := takeSign s
      let ds := t.takeWhile Char.isDigit
      if ds = [] then none
      else
        some (if negative then -(natOf ds : Int) else natOf ds,
          1 + (s.length - t.length) + ds.length)
    else none
  | [] => none

/-- **The longest number** at the front of a text, and the number of characters it takes. Without
fraction and exponent it is an integer, which may have more digits than are converted. -/
def readNumber? (digits : Option Nat) (s : List Char) : Option (Token τ × Nat) :=
  let negative := s.head? == some '-'
  let t := if negative then s.drop 1 else s
  let signLength := if negative then 1 else 0
  let whole := wholeDigits t
  if whole = [] then none
  else
    let rest := t.drop whole.length
    let fraction := fractionDigits rest
    let fractionLength := if fraction = [] then 0 else 1 + fraction.length
    let exponent := exponentAt? (rest.drop fractionLength)
    let length := signLength + whole.length + fractionLength + (exponent.map (·.2)).getD 0
    if fraction = [] ∧ exponent.isNone then
      if digits.any (· < whole.length) then some (.longInteger, length)
      else
        let n : Int := natOf whole
        some (.literal (.int (if negative then -n else n)), length)
    else
      let e := (exponent.map (·.1)).getD 0 - fraction.length
      some (.literal (.float (ofDecimal negative (natOf (whole ++ fraction)) e)), length)

/-! ## Tokens -/

/-- The literals with their values. -/
def literals : List (List Char × Value τ) :=
  [("null".toList, .null), ("true".toList, .bool true), ("false".toList, .bool false),
    ("NaN".toList, .float .nan), ("Infinity".toList, .float (.inf false)),
    ("-Infinity".toList, .float (.inf true))]

/-- The literal at the front of a text, and its length. -/
def readLiteral? (s : List Char) : Option (Token τ × Nat) :=
  literals.findSome? fun (w, v) => if w.isPrefixOf s then some (.literal v, w.length) else none

/-- The token at the front of a text at a position, and its length. -/
def tokenAt (spell : RawText → τ) (halves : List (Nat × Nat)) (digits : Option Nat)
    (position : Nat) (s : List Char) : Token τ × Nat :=
  match s with
  | '{' :: _ => (.openObject, 1)
  | '}' :: _ => (.closeObject, 1)
  | '[' :: _ => (.openList, 1)
  | ']' :: _ => (.closeList, 1)
  | ',' :: _ => (.comma, 1)
  | ':' :: _ => (.colon, 1)
  | '"' :: t =>
    match readText halves position (position + 1) none [] t with
    | .ok (letters, stop) => (.text (spell letters), stop - position)
    | .error m => (.brokenText m, s.length)
  | _ => ((readLiteral? s).or (readNumber? digits s)).getD (.unknown, 1)

/-- Blanks between tokens. -/
def isGap (c : Char) : Bool :=
  c == ' ' || c == '\t' || c == '\n' || c == '\r'

/-- The tokens from a position on, after `skip` characters of the token before. -/
def lexemesFrom (spell : RawText → τ) (halves : List (Nat × Nat)) (digits : Option Nat) :
    Nat → Nat → List Char → List (Lexeme τ)
  | _, _, [] => []
  | skip + 1, position, _ :: s => lexemesFrom spell halves digits skip (position + 1) s
  | 0, position, c :: s =>
    if isGap c then lexemesFrom spell halves digits 0 (position + 1) s
    else
      let (token, length) := tokenAt spell halves digits position (c :: s)
      ⟨position, token⟩ :: lexemesFrom spell halves digits (length - 1) (position + 1) s

/-- **The tokens of a data text** in order. -/
def lexemes (spell : RawText → τ) (halves : List (Nat × Nat)) (digits : Option Nat)
    (s : List Char) : List (Lexeme τ) :=
  lexemesFrom spell halves digits 0 0 s

end HdlReview.Json
