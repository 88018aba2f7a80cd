/-!
# Characters as octets

A character is written in UTF-8 as one to four octets. Reading never fails: octets that start no
character, or break one off, are read as one replacement character for each longest start of a
character.

## Main definitions

* `octets c`, `octetCount s`: the octets of a character, and the number of octets of a text
* `Lead`, `lead? b`: what the first octet of a character calls for
* `readOctets bs`: the characters of a list of octets
-/

namespace HdlReview.Text

/-- The octets of a character. -/
def octets (c : Char) : List Nat :=
  let n := c.toNat
  if n < 0x80 then [n]
  else if n < 0x800 then [0xC0 + n / 0x40, 0x80 + n % 0x40]
  else if n < 0x10000 then [0xE0 + n / 0x1000, 0x80 + n / 0x40 % 0x40, 0x80 + n % 0x40]
  else [0xF0 + n / 0x40000, 0x80 + n / 0x1000 % 0x40, 0x80 + n / 0x40 % 0x40, 0x80 + n % 0x40]

/-- The number of octets of a text. -/
def octetCount (s : String) : Nat :=
  (s.toList.flatMap octets).length

/-- What a first octet calls for: its own bits, the number of octets that follow, and the bounds of
the next one. -/
structure Lead where
  bits : Nat
  following : Nat
  low : Nat
  high : Nat
deriving DecidableEq, Repr

/-- What an octet calls for as the first of a character, if it can be one. -/
def lead? (b : Nat) : Option Lead :=
  if b < 0x80 then some ⟨b, 0, 0x80, 0xBF⟩
  else if b < 0xC2 then none
  else if b < 0xE0 then some ⟨b - 0xC0, 1, 0x80, 0xBF⟩
  else if b = 0xE0 then some ⟨0, 2, 0xA0, 0xBF⟩
  else if b = 0xED then some ⟨0xD, 2, 0x80, 0x9F⟩
  else if b < 0xF0 then some ⟨b - 0xE0, 2, 0x80, 0xBF⟩
  else if b = 0xF0 then some ⟨0, 3, 0x90, 0xBF⟩
  else if b < 0xF4 then some ⟨b - 0xF0, 3, 0x80, 0xBF⟩
  else if b = 0xF4 then some ⟨4, 3, 0x80, 0x8F⟩
  else none

/-- Reads the following octets of a character: its number, if they are all there, and the rest. -/
def readFollowing (bits low high : Nat) : Nat → List Nat → Option Nat × List Nat
  | 0, bs => (some bits, bs)
  | _ + 1, [] => (none, [])
  | following + 1, b :: bs =>
    if low ≤ b ∧ b ≤ high then readFollowing (0x40 * bits + b % 0x40) 0x80 0xBF following bs
    else (none, b :: bs)

theorem length_readFollowing (bits low high following : Nat) (bs : List Nat) :
    (readFollowing bits low high following bs).2.length ≤ bs.length := by
  induction following generalizing bits low high bs with
  | zero => exact Nat.le_refl _
  | succ following ih =>
    cases bs with
    | nil => exact Nat.le_refl _
    | cons b bs =>
      rw [readFollowing]
      split
      · exact Nat.le_trans (ih ..) (Nat.le_succ _)
      · exact Nat.le_refl _

/-- What stands for octets that are no character. -/
def replacement : Char := Char.ofNat 0xFFFD

/-- The first character of some octets, and the octets after it. -/
def readOctet (b : Nat) (bs : List Nat) : Char × List Nat :=
  match lead? b with
  | none => (replacement, bs)
  | some l =>
    match readFollowing l.bits l.low l.high l.following bs with
    | (some n, rest) => (Char.ofNat n, rest)
    | (none, rest) => (replacement, rest)

theorem length_readOctet (b : Nat) (bs : List Nat) : (readOctet b bs).2.length ≤ bs.length := by
  rw [readOctet]
  split
  · exact Nat.le_refl _
  · rename_i l _
    have h := length_readFollowing l.bits l.low l.high l.following bs
    split <;> rename_i heq <;> simpa [heq] using h

/-- **The characters of a list of octets**. -/
def readOctets : List Nat → List Char
  | [] => []
  | b :: bs => (readOctet b bs).1 :: readOctets (readOctet b bs).2
termination_by bs => bs.length
decreasing_by exact Nat.lt_succ_of_le (length_readOctet b bs)

end HdlReview.Text
