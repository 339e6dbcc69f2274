/-!
# text as bytes in UTF-8

* `Utf8.encode`   the bytes of a text;
* `Utf8.pieces`   the bytes cut into characters and maximal invalid parts (`none`);
* `Utf8.decode?`  the text, if no part is invalid;
* `Utf8.lossy`    the text with every maximal invalid part shown as U+FFFD.

A maximal invalid part is the longest start of a character that its next byte does not continue,
or a single byte that starts no character.
-/

namespace DeskClock.Utf8

def encode (cs : List Char) : List UInt8 := cs.flatMap String.utf8EncodeChar

/-- a character whose bytes have begun: the bits read so far, the bounds of the next byte, and the
count of bytes after that one -/
structure Begun where
  bits : Nat
  low : UInt8 := 0x80
  high : UInt8 := 0xBF
  more : Nat

/-- what a byte outside a character gives: the pieces that it ends and the character it begins -/
def start (b : UInt8) : List (Option Char) × Option Begun :=
  if b < 0x80 then ([some (Char.ofNat b.toNat)], none)
  else if b < 0xC2 then ([none], none)
  else if b < 0xE0 then ([], some { bits := b.toNat - 0xC0, more := 0 })
  else if b = 0xE0 then ([], some { bits := 0, low := 0xA0, more := 1 })
  else if b = 0xED then ([], some { bits := 0xD, high := 0x9F, more := 1 })
  else if b < 0xF0 then ([], some { bits := b.toNat - 0xE0, more := 1 })
  else if b = 0xF0 then ([], some { bits := 0, low := 0x90, more := 2 })
  else if b < 0xF4 then ([], some { bits := b.toNat - 0xF0, more := 2 })
  else if b = 0xF4 then ([], some { bits := 4, high := 0x8F, more := 2 })
  else ([none], none)

/-- the state after a byte, and the pieces that it ends -/
def step (begun : Option Begun) (b : UInt8) : List (Option Char) × Option Begun :=
  match begun with
  | none => start b
  | some u =>
    if u.low ≤ b ∧ b ≤ u.high then
      let bits := u.bits * 64 + (b.toNat - 0x80)
      match u.more with
      | 0 => ([some (Char.ofNat bits)], none)
      | more + 1 => ([], some { bits, more })
    else
      let (ended, begun) := start b
      (none :: ended, begun)

def piecesFrom (begun : Option Begun) : List UInt8 → List (Option Char)
  | [] => if begun.isSome then [none] else []
  | b :: bs => (step begun b).1 ++ piecesFrom (step begun b).2 bs

def pieces (bytes : List UInt8) : List (Option Char) := piecesFrom none bytes

def decode? (bytes : List UInt8) : Option (List Char) := (pieces bytes).mapM id

def lossy (bytes : List UInt8) : List Char := (pieces bytes).map (·.getD (Char.ofNat 0xFFFD))

/-- the bytes of a text -/
def ofString (s : String) : List UInt8 := encode s.toList

/-- the text of valid bytes -/
def string? (bytes : List UInt8) : Option String := (decode? bytes).map String.ofList

/-- the text of any bytes, with U+FFFD for invalid parts -/
def lossyString (bytes : List UInt8) : String := String.ofList (lossy bytes)

end DeskClock.Utf8
