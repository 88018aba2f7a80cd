import HdlReview.Scan.Pattern

/-!
# Searching a source

A search goes through the source from left to right. The first match is the one at the least
place; all matches are found by going on behind each one, so they do not overlap. Lines are
separated by line feeds and numbered from one.

## Main definitions

* `Match`: a place, the text matched there and its captured parts
* `search p s`, `findAll p s`, `contains p s`: the first match, all matches, whether there is one
* `cut p s`: the pieces of `s` between the matches of `p`
* `lines s`, `lineOf s offset`, `lineOfFirst p s`: lines and line numbers
-/

namespace HdlReview.Scan

/-- A match of a pattern in a source. -/
structure Match where
  start : Nat
  text : List Char
  groups : List (List Char)
deriving DecidableEq, Repr

namespace Match

/-- The place behind a match. -/
def stop (m : Match) : Nat :=
  m.start + m.text.length

/-- The first part that a match captures, empty if it captures none. -/
def group (m : Match) : List Char :=
  m.groups.headD []

/-- The match of a hit at a place. -/
def ofHit (position : Nat) (h : Hit) : Match :=
  ⟨position, h.text, h.groups⟩

end Match

/-! ## Matches -/

/-- The first match from a place on, the character before the place being known. -/
def searchFrom (p : Pattern) : Option Char → Nat → List Char → Option Match
  | _, _, [] => none
  | before, position, c :: s =>
    match p.hit? before (c :: s) with
    | some h => some (.ofHit position h)
    | none => searchFrom p (some c) (position + 1) s

/-- The matches from a place on, after `skip` characters of the match before. -/
def findFrom (p : Pattern) : Nat → Option Char → Nat → List Char → List Match
  | _, _, _, [] => []
  | skip + 1, _, position, c :: s => findFrom p skip (some c) (position + 1) s
  | 0, before, position, c :: s =>
    match p.hit? before (c :: s) with
    | some h => .ofHit position h :: findFrom p (h.text.length - 1) (some c) (position + 1) s
    | none => findFrom p 0 (some c) (position + 1) s

/-- **The first match** of a pattern. -/
def search (p : Pattern) (s : List Char) : Option Match :=
  searchFrom p none 0 s

/-- **All matches** of a pattern that do not overlap, from the left. -/
def findAll (p : Pattern) (s : List Char) : List Match :=
  findFrom p 0 none 0 s

/-- Whether a pattern has a match. -/
def contains (p : Pattern) (s : List Char) : Bool :=
  (search p s).isSome

/-- The pieces from a place on, after `skip` characters of the match before. -/
def cutFrom (p : Pattern) : Nat → Option Char → List Char → List (List Char)
  | _, _, [] => [[]]
  | skip + 1, _, c :: s => cutFrom p skip (some c) s
  | 0, before, c :: s =>
    match p.hit? before (c :: s) with
    | some h => [] :: cutFrom p (h.text.length - 1) (some c) s
    | none => (cutFrom p 0 (some c) s).modifyHead (c :: ·)

/-- **The pieces between the matches** of a pattern. -/
def cut (p : Pattern) (s : List Char) : List (List Char) :=
  cutFrom p 0 none s

/-! ## Lines -/

/-- The lines of a source, without their line feeds. -/
def lines (s : List Char) : List (List Char) :=
  s.splitOn '\n'

/-- The place that an offset means in a text of length `n`: a negative one counts from the end and
stops at the beginning. -/
def place (n : Nat) (offset : Int) : Nat :=
  if offset < 0 then (n + offset).toNat else offset.toNat

/-- **The line number** of an offset: one more than the line feeds before it. -/
def lineOf (s : List Char) (offset : Int) : Nat :=
  (s.take (place s.length offset)).count '\n' + 1

/-- The line number of the first match. -/
def lineOfFirst (p : Pattern) (s : List Char) : Option Nat :=
  (search p s).map fun m => lineOf s m.start

end HdlReview.Scan
