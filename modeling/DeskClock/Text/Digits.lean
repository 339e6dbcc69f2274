/-!
# decimal digits

* `Digits.ofNat`    the decimal digits of a number, without leading zeros;
* `Digits.value`    the number that a run of digits stands for;
* `Digits.padded`   the digits of a number, filled with zeros from the left;
* `Digits.hex`      a number in base sixteen with a fixed count of digits.
-/

namespace DeskClock.Digits

/-- the digit for the last decimal place of a number -/
def digit (n : Nat) : Char := Char.ofNat (48 + n % 10)

/-- the value of a digit -/
def digitValue (c : Char) : Nat := c.toNat - 48

def ofNat (n : Nat) : List Char :=
  if n < 10 then [digit n] else ofNat (n / 10) ++ [digit n]

/-- digits read from the left, in front of them the number `start` -/
def valueFrom (start : Nat) (cs : List Char) : Nat :=
  cs.foldl (fun n c => 10 * n + digitValue c) start

def value (cs : List Char) : Nat := valueFrom 0 cs

def ofInt (n : Int) : List Char :=
  if n < 0 then '-' :: ofNat n.natAbs else ofNat n.natAbs

/-- at least `width` digits -/
def padded (width n : Nat) : List Char :=
  List.replicate (width - (ofNat n).length) '0' ++ ofNat n

/-- the upper-case digit of base sixteen for a value below sixteen -/
def hexDigit (n : Nat) : Char :=
  if n < 10 then Char.ofNat (48 + n) else Char.ofNat (55 + n)

/-- the lower-case digit of base sixteen for a value below sixteen -/
def hexDigitLower (n : Nat) : Char :=
  if n < 10 then Char.ofNat (48 + n) else Char.ofNat (87 + n)

/-- the last `width` digits of base sixteen, each spelled by `spell` -/
def hex (spell : Nat → Char) : (width n : Nat) → List Char
  | 0, _ => []
  | width + 1, n => hex spell width (n / 16) ++ [spell (n % 16)]

/-- the value of a digit of base sixteen in either case -/
def hexValue? (c : Char) : Option Nat :=
  if '0' ≤ c ∧ c ≤ '9' then some (c.toNat - 48)
  else if 'a' ≤ c ∧ c ≤ 'f' then some (c.toNat - 87)
  else if 'A' ≤ c ∧ c ≤ 'F' then some (c.toNat - 55)
  else none

end DeskClock.Digits
