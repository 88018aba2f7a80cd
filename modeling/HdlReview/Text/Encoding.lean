import HdlReview.Text.Utf8

/-!
# Encodings of a data text

A data text comes as octets in one of five encodings. Which one it is shows in the zeros among the
first four octets, since a data text starts with characters of one octet; a byte order mark in
UTF-8 is dropped. A half of a surrogate pair without its other half is kept as a letter of its own,
which no encoding of a response has a place for.

## Main definitions

* `Letter`, `RawText`: characters and lone halves, and texts of them
* `RawText.plain t`, `RawText.ofString s`, `RawText.isPlain t`: texts of characters only
* `ByteOrder`, `Encoding`: the encodings
* `Encoding.detect bs`: the encoding that the first octets show
* `unitsOf? order size bs`: octets taken together to numbers of `size` octets each
* `joinPairs ns`: the letters of a list of UTF-16 units
* `Encoding.decode? e bs`: the letters of some octets
* `decodeText? bs`: the letters of a data text
-/

namespace HdlReview.Text

/-- Which octet of a number comes first. -/
inductive ByteOrder where
  | big
  | little
deriving DecidableEq, Repr

/-- The encodings of a data text. -/
inductive Encoding where
  | utf8
  | utf16 (order : ByteOrder)
  | utf32 (order : ByteOrder)
deriving DecidableEq, Repr

/-! ## Letters -/

/-- A letter: a character, or a half of a surrogate pair that stands alone. -/
inductive Letter where
  | char (c : Char)
  | half (unit : Nat)
deriving DecidableEq, Repr

namespace Letter

/-- The character of a letter, for a half its replacement. -/
def plain : Letter → Char
  | char c => c
  | half _ => replacement

/-- Whether a letter is a character. -/
def isChar : Letter → Bool
  | char _ => true
  | half _ => false

end Letter

/-- A text that may hold lone halves. -/
abbrev RawText := List Letter

namespace RawText

/-- The text with replacements for its lone halves. -/
def plain (t : RawText) : String :=
  String.ofList (t.map Letter.plain)

/-- A text of characters. -/
def ofString (s : String) : RawText :=
  s.toList.map .char

/-- Whether a text has no lone halves. -/
def isPlain (t : RawText) : Bool :=
  t.all Letter.isChar

/-- The lone halves of a text from a position on, each with its position. -/
def halvesFrom : Nat → RawText → List (Nat × Nat)
  | _, [] => []
  | position, .char _ :: t => halvesFrom (position + 1) t
  | position, .half unit :: t => (position, unit) :: halvesFrom (position + 1) t

@[simp] theorem plain_ofString (s : String) : (ofString s).plain = s := by
  have hchars : Letter.plain ∘ Letter.char = id := rfl
  rw [plain, ofString, List.map_map, hchars, List.map_id, String.ofList_toList]

end RawText

/-! ## Which encoding -/

/-- The encoding that the first octets show. -/
def Encoding.detect : List Nat → Encoding
  | [0, _] => .utf16 .big
  | [_, 0] => .utf16 .little
  | 0 :: 0 :: _ :: _ :: _ => .utf32 .big
  | 0 :: _ :: _ :: _ :: _ => .utf16 .big
  | _ :: 0 :: 0 :: 0 :: _ => .utf32 .little
  | _ :: 0 :: _ :: _ :: _ => .utf16 .little
  | _ => .utf8

/-! ## Numbers of several octets -/

/-- The number that some octets make, the first weighing most. -/
def numberOf (bs : List Nat) : Nat :=
  bs.foldl (fun n b => 0x100 * n + b) 0

/-- The octets taken together in groups of `size`, after a group that is still to be filled. -/
def groupsFrom? (size : Nat) : List Nat → List Nat → Option (List (List Nat))
  | [], [] => some []
  | _ :: _, [] => none
  | group, b :: bs =>
    if group.length + 1 < size then groupsFrom? size (group ++ [b]) bs
    else (groupsFrom? size [] bs).map ((group ++ [b]) :: ·)

/-- **The numbers of `size` octets each**, if there is no octet too many. -/
def unitsOf? (order : ByteOrder) (size : Nat) (bs : List Nat) : Option (List Nat) :=
  (groupsFrom? size [] bs).map fun groups => groups.map fun group =>
    numberOf (if order = .big then group else group.reverse)

/-! ## Pairs -/

/-- Whether a unit is the first half of a surrogate pair. -/
def isHighHalf (n : Nat) : Bool :=
  0xD800 ≤ n && n ≤ 0xDBFF

/-- Whether a unit is the second half of a surrogate pair. -/
def isLowHalf (n : Nat) : Bool :=
  0xDC00 ≤ n && n ≤ 0xDFFF

/-- The letter with a number. -/
def Letter.ofNat (n : Nat) : Letter :=
  if isHighHalf n || isLowHalf n then .half n else .char (Char.ofNat n)

/-- The character of a surrogate pair. -/
def pairChar (high low : Nat) : Char :=
  Char.ofNat (0x10000 + (high - 0xD800) * 0x400 + (low - 0xDC00))

/-- **The letters of a list of UTF-16 units**. -/
def joinPairs : List Nat → RawText
  | high :: low :: ns =>
    if isHighHalf high && isLowHalf low then .char (pairChar high low) :: joinPairs ns
    else .ofNat high :: joinPairs (low :: ns)
  | [n] => [.ofNat n]
  | [] => []

/-- The letters with some numbers, if all are in range. -/
def lettersOf? (ns : List Nat) : Option RawText :=
  if ns.all (· < 0x110000) then some (ns.map .ofNat) else none

/-- **The letters of some octets** in an encoding. -/
def Encoding.decode? (e : Encoding) (bs : List Nat) : Option RawText :=
  match e with
  | utf8 => some ((readOctets bs).map .char)
  | utf16 order => (unitsOf? order 2 bs).map joinPairs
  | utf32 order => (unitsOf? order 4 bs).bind lettersOf?

/-- **The letters of a data text**, without a byte order mark. -/
def decodeText? : List Nat → Option RawText
  | 0xEF :: 0xBB :: 0xBF :: bs => Encoding.utf8.decode? bs
  | bs => (Encoding.detect bs).decode? bs

end HdlReview.Text
