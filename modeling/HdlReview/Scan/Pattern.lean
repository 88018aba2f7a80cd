import HdlReview.Text.Blank
import HdlReview.Text.CaseFold
import HdlReview.Text.Word

/-!
# Patterns of a source text

The review looks at a source only through a few patterns: whole words, identifiers, sensitivity
headers, list separators, assignment marks, clock edges and assignments. Each pattern is a
recogniser that is asked at a place of the source, given the character before the place and the
text after it, and answers with the text it matches there and the parts it captures. No pattern
matches the empty text.

A whole word is a maximal run of word characters, so the patterns for keywords and identifiers are
conditions on such runs.

## Main definitions

* `Pattern`: the patterns
* `Hit`: a matched text and the parts it captures
* `Pattern.hit? p before s`: what `p` matches at the front of `s`
-/

namespace HdlReview.Scan

open HdlReview.Text

/-- What a pattern matches at a place: the text, and the parts of it that are captured. -/
structure Hit where
  text : List Char
  groups : List (List Char)
deriving DecidableEq, Repr

/-- A pattern that the review looks for. -/
inductive Pattern where
  /-- A whole word that is one of the given ones, with or without regard to case. -/
  | word (caseless : Bool) (choices : List (List Char))
  /-- A whole word that is an identifier. -/
  | identifier
  /-- `@`, blanks, and a list in parentheses that holds no parentheses. -/
  | header
  /-- `always`, blanks, and a header on whose list lies no line break. -/
  | alwaysHeader
  /-- A comma between blanks, or the word `or` with blanks on both sides. -/
  | separator
  /-- A single equals sign that is not part of a comparison. -/
  | blocking
  /-- The mark of a non-blocking assignment. -/
  | nonBlocking
  /-- The word `posedge`, blanks, and the name of a clock. -/
  | posedge
  /-- An identifier, blanks, and the mark of an assignment of either kind. -/
  | assignment
deriving DecidableEq, Repr

/-- Whether the character before a place lies inside a word. -/
def insideWord (before : Option Char) : Bool :=
  before.any isWord

/-- The word that starts at the front of a text, empty if none does. -/
def leadingWord (s : List Char) : List Char :=
  s.takeWhile isWord

/-- Whether a word is one of the given ones. -/
def isChoice (caseless : Bool) (choices : List (List Char)) (w : List Char) : Bool :=
  choices.any fun k => if caseless then sameFolded w k else w == k

/-- A whole word that satisfies a condition. -/
def wordHit? (accepts : List Char → Bool) (before : Option Char) (s : List Char) : Option Hit :=
  let w := leadingWord s
  if !insideWord before && w != [] && accepts w then some ⟨w, []⟩ else none

/-- `@`, blanks, and a list in parentheses whose characters satisfy a condition. -/
def listHit? (inList : Char → Bool) : List Char → Option Hit
  | '@' :: s =>
    match s.dropWhile isBlank with
    | '(' :: t =>
      match t.dropWhile inList with
      | ')' :: _ =>
        let body := t.takeWhile inList
        some ⟨'@' :: s.takeWhile isBlank ++ '(' :: body ++ [')'], [body]⟩
      | _ => none
    | _ => none
  | _ => none

/-- Whether a character may stand in the list of a header. -/
def inHeader (c : Char) : Bool :=
  c != '(' && c != ')'

/-- Whether a character may stand in the list of a header on one line. -/
def inLineHeader (c : Char) : Bool :=
  inHeader c && c != '\n'

/-- `always`, blanks, and a header on one line. -/
def alwaysHit? (s : List Char) : Option Hit :=
  match "always".toList.isPrefixOf? s with
  | some t =>
    (listHit? inLineHeader (t.dropWhile isBlank)).map fun h =>
      ⟨"always".toList ++ t.takeWhile isBlank ++ h.text, h.groups⟩
  | none => none

/-- A comma between blanks, or the word `or` with blanks on both sides. -/
def separatorHit? (s : List Char) : Option Hit :=
  let gap := s.takeWhile isBlank
  match s.dropWhile isBlank with
  | ',' :: t => some ⟨gap ++ ',' :: t.takeWhile isBlank, []⟩
  | 'o' :: 'r' :: t =>
    let after := t.takeWhile isBlank
    if gap != [] && after != [] then some ⟨gap ++ 'o' :: 'r' :: after, []⟩ else none
  | _ => none

/-- Whether an equals sign after this character belongs to a longer mark. -/
def joinsEquals (c : Char) : Bool :=
  c == '<' || c == '>' || c == '=' || c == '!'

/-- A single equals sign that is not part of a comparison. -/
def blockingHit? (before : Option Char) : List Char → Option Hit
  | '=' :: s => if before.any joinsEquals || s.head? == some '=' then none else some ⟨['='], []⟩
  | _ => none

/-- The mark of a non-blocking assignment. -/
def nonBlockingHit? : List Char → Option Hit
  | '<' :: '=' :: _ => some ⟨['<', '='], []⟩
  | _ => none

/-- The word `posedge`, blanks, and the longest name that follows. -/
def posedgeHit? (before : Option Char) (s : List Char) : Option Hit :=
  match "posedge".toList.isPrefixOf? s with
  | some t =>
    let gap := t.takeWhile isBlank
    let name := (t.dropWhile isBlank).takeWhile isIdentRest
    if !insideWord before && gap != [] && isIdentifier name then
      some ⟨"posedge".toList ++ gap ++ name, [name]⟩
    else none
  | none => none

/-- The mark of an assignment at the front of a text: `=` or `<=`, with no `=` behind it. -/
def assignmentMark? : List Char → Option (List Char)
  | '<' :: '=' :: s => if s.head? == some '=' then none else some ['<', '=']
  | '=' :: s => if s.head? == some '=' then none else some ['=']
  | _ => none

/-- An identifier, blanks, and the mark of an assignment. -/
def assignmentHit? (before : Option Char) (s : List Char) : Option Hit :=
  let name := leadingWord s
  if !insideWord before && isIdentifier name then
    let t := s.dropWhile isWord
    (assignmentMark? (t.dropWhile isBlank)).map fun mark =>
      ⟨name ++ t.takeWhile isBlank ++ mark, [name]⟩
  else none

namespace Pattern

/-- **What a pattern matches at the front of a text**, after the character `before`. -/
def hit? (p : Pattern) (before : Option Char) (s : List Char) : Option Hit :=
  match p with
  | word caseless choices => wordHit? (isChoice caseless choices) before s
  | identifier => wordHit? isIdentifier before s
  | header => listHit? inHeader s
  | alwaysHeader => alwaysHit? s
  | separator => separatorHit? s
  | blocking => blockingHit? before s
  | nonBlocking => nonBlockingHit? s
  | posedge => posedgeHit? before s
  | assignment => assignmentHit? before s

/-- The pattern of a single whole word. -/
def wholeWord (w : String) : Pattern :=
  .word false [w.toList]

/-- The pattern of a single whole word without regard to case. -/
def caselessWord (w : String) : Pattern :=
  .word true [w.toList]

/-- The words for clock edges. -/
def edge : Pattern :=
  .word false ["posedge".toList, "negedge".toList]

/-- The words that open a case statement. -/
def caseWord : Pattern :=
  .word false ["case".toList, "casex".toList, "casez".toList]

end Pattern

end HdlReview.Scan
