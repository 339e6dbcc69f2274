import DeskClock.Binary64.Decimal
import DeskClock.Json.Token

/-!
# JSON numbers

* `Json.Numeral.value?`   the float that is read for a number: the digits are gathered into a whole
                          number of 64 bits, which is rounded and then scaled by a power of ten;
* `Json.writeNumber`      a finite float with the shortest digits.

Reading rounds twice, so it may miss the nearest float of a long number by a little.
-/

namespace DeskClock.Json

/-- the greatest significand -/
def maxSignificand : Nat := 18446744073709551615

/-- the digits of a whole number gathered into a significand; from the first digit on that does not
fit, the count of digits left out -/
def gatherWhole : (significand : Nat) → List Char → Nat × Nat
  | significand, [] => (significand, 0)
  | significand, c :: cs =>
    let more := 10 * significand + Digits.digitValue c
    if more ≤ maxSignificand then gatherWhole more cs else (significand, cs.length + 1)

/-- the digits of a fraction gathered into a significand, and how many they are; from the first digit
on that does not fit, all are passed over -/
def gatherFraction : (significand : Nat) → List Char → Nat × Nat
  | significand, [] => (significand, 0)
  | significand, c :: cs =>
    let more := 10 * significand + Digits.digitValue c
    if more ≤ maxSignificand then
      let (significand, count) := gatherFraction more cs
      (significand, count + 1)
    else (significand, 0)

/-- the greatest power of ten that is multiplied or divided by at once -/
def maxPower : Nat := 308

/-- the float nearest to a power of ten -/
def powerOfTen (power : Nat) : Binary64 := Binary64.ofNat (Nat.pow 10 power)

def isZero : Binary64 → Bool
  | .finite _ rank => rank.val == 0
  | _ => false

/-- a float times a power of ten, with at most `more` steps for powers below `-maxPower`; an infinite
product is refused -/
def scale? : (more : Nat) → Binary64 → (exponent : Int) → Option Binary64
  | more, x, exponent =>
    if exponent.natAbs ≤ maxPower then
      if 0 ≤ exponent then
        let product := x.mul (powerOfTen exponent.natAbs)
        if product.isFinite then some product else none
      else some (x.div (powerOfTen exponent.natAbs))
    else if isZero x then some x
    else if 0 ≤ exponent then none
    else
      match more with
      | 0 => none
      | more + 1 => scale? more (x.div (powerOfTen maxPower)) (exponent + maxPower)

namespace Numeral

/-- the significand and the power of ten of a number -/
def parts (n : Numeral) : Nat × Int :=
  let (significand, dropped) := gatherWhole 0 n.whole
  let (significand, places) := gatherFraction significand (n.fraction.getD [])
  let exponent : Int := match n.exponent with
    | none => 0
    | some (true, digits) => -(Digits.value digits : Int)
    | some (false, digits) => Digits.value digits
  (significand, dropped - places + exponent)

/-- three steps are enough: a significand of 64 bits divided twice by `10 ^ 308` is zero -/
def value? (n : Numeral) : Option Binary64 :=
  let (significand, exponent) := n.parts
  (scale? 3 (Binary64.ofNat significand) exponent).map fun x => if n.negative then x.neg else x

end Numeral

/-! ## writing -/

/-- one digit, a point and the other digits, if there are any, and the exponent with its sign -/
def scientific (digits : List Char) (exponent : Int) : List Char :=
  digits.take 1 ++ (if 1 < digits.length then '.' :: digits.drop 1 else [])
    ++ 'e' :: (if exponent < 0 then '-' else '+') :: Digits.ofNat exponent.natAbs

/-- the digits of a positive rank: positional from `1e-5` up to below `1e16`, else with an exponent -/
def writeRank (rank : Nat) : List Char :=
  let (digits, power) := Binary64.shortest .toEven rank
  let text := Digits.ofNat digits
  let exponent := power + text.length - 1
  if -5 ≤ exponent ∧ exponent ≤ 15 then Binary64.positional digits power
  else scientific text exponent

/-- a finite float; others are not numbers in JSON -/
def writeNumber : Binary64 → List Char
  | .finite negative rank =>
    (if negative then ['-'] else []) ++
      if rank.val = 0 then ['0', '.', '0'] else writeRank rank
  | _ => ['n', 'u', 'l', 'l']

end DeskClock.Json
