import DeskClock.Binary64
import DeskClock.Text.Digits

/-!
# shortest decimal digits

* `Binary64.Tie`        which of two equally near decimals is taken;
* `Binary64.shortest`   the fewest digits `d` with a power such that `d * 10 ^ p` rounds to a given
                        rank, and of those the nearest to its value;
* `Binary64.fixed`      the digits of a value with a fixed count of places;
* `Binary64.ofText?`    the number that decimal text stands for.

The decimals of one power of ten form a grid. If a point of a grid rounds to the rank, so does one
of the two neighbours of the value on that grid, so it is enough to try these two, from the coarsest
grid on. On the grid of the power `-1074` or below the value itself is a point.
-/

namespace DeskClock.Binary64

inductive Tie where
  | toEven
  | up
deriving DecidableEq

/-- the fractions, in quarters of a unit, between which a number rounds to a rank: halfway to the
rank below and halfway to the rank above -/
structure Interval where
  low : Nat
  middle : Nat
  high : Nat
  closed : Bool

/-- the interval of a positive rank; its ends round to it exactly if the rank is even -/
def interval (rank : Nat) : Interval where
  low := 2 * (units (rank - 1) + units rank)
  middle := 4 * units rank
  high := 2 * (units rank + units (rank + 1))
  closed := rank % 2 == 0

namespace Interval

/-- whether `num / den` quarters lie in the interval -/
def contains (i : Interval) (num den : Nat) : Bool :=
  if i.closed then i.low * den ≤ num && num ≤ i.high * den
  else i.low * den < num && num < i.high * den

/-- the best point of the grid whose step is `num / den` quarters -/
def onGrid? (i : Interval) (tie : Tie) (num den : Nat) : Option Nat :=
  let below := i.middle * den / num
  let above := below + 1
  let rest := i.middle * den - below * num
  match i.contains (below * num) den, i.contains (above * num) den with
  | false, false => none
  | true, false => some below
  | false, true => some above
  | true, true =>
    if 2 * rest < num then some below
    else if num < 2 * rest then some above
    else match tie with
      | .up => some above
      | .toEven => some (below + below % 2)

/-- the step of the grid of `10 ^ power`, in quarters, as a fraction -/
def step (power : Int) : Nat × Nat :=
  if 0 ≤ power then (4 * unit * Nat.pow 10 power.toNat, 1) else (4 * unit, Nat.pow 10 (-power).toNat)

/-- the best point of the first of the grids from `power` down that has one -/
def search (i : Interval) (tie : Tie) (power : Int) : Nat → Option (Nat × Int)
  | 0 => none
  | fuel + 1 =>
    match i.onGrid? tie (step power).1 (step power).2 with
    | some digits => some (digits, power)
    | none => i.search tie (power - 1) fuel

end Interval

/-- a power of ten above every number that rounds to a rank, with few powers between: the value is
below `2 ^ (b + 1)` for the bit length `b`, and `0.302` is just above the decimal logarithm of two -/
def startPower (rank : Nat) : Int :=
  (((units rank).log2 : Int) + 2 - 1074) * 302 / 1000 + 1

/-- the shortest digits of a positive rank and the power of ten they are multiplied by -/
def shortest (tie : Tie) (rank : Nat) : Nat × Int :=
  let power := startPower rank
  ((interval rank).search tie power (power + 1076).toNat).getD (units rank * Nat.pow 5 unitPlaces, -(unitPlaces : Int))

/-- the absolute value with `places` digits after the point, a tie going to the even last digit -/
def fixed (places : Nat) (rank : Nat) : List Char :=
  let scaled := roundHalfEven (units rank * Nat.pow 10 places) unit
  let digits := Digits.padded (places + 1) scaled
  let whole := digits.take (digits.length - places)
  if places = 0 then whole else whole ++ '.' :: digits.drop (digits.length - places)

/-- digits with a point in front of the last `-power` of them, or with `power` zeros after them and
then `.0` -/
def positional (digits : Nat) (power : Int) : List Char :=
  if 0 ≤ power then
    Digits.ofNat digits ++ List.replicate power.toNat '0' ++ ['.', '0']
  else
    let places := (-power).toNat
    let text := Digits.padded (places + 1) digits
    text.take (text.length - places) ++ '.' :: text.drop (text.length - places)

/-- the power of ten after the letter of an exponent; the empty text is the power zero -/
def exponent? : List Char → Option Int
  | [] => some 0
  | _ :: '-' :: cs => if cs.isEmpty || !cs.all Char.isDigit then none else some (-(Digits.value cs : Int))
  | _ :: '+' :: cs => if cs.isEmpty || !cs.all Char.isDigit then none else some (Digits.value cs)
  | _ :: cs => if cs.isEmpty || !cs.all Char.isDigit then none else some (Digits.value cs)

/-- digits, with a point among them or without, and then an exponent or none -/
def ofMagnitude? (negative : Bool) (cs : List Char) : Option Binary64 := do
  let mantissa := cs.takeWhile fun c => c.isDigit || c = '.'
  let power ← exponent? (cs.drop mantissa.length)
  let whole := mantissa.takeWhile Char.isDigit
  let fraction := (mantissa.drop whole.length).drop 1
  if (whole ++ fraction).isEmpty || !fraction.all Char.isDigit then none
  else if (cs.drop mantissa.length).head?.any (· != 'e') then none
  else some (ofDecimal negative (Digits.value (whole ++ fraction)) (power - fraction.length))

/-- words and decimals in letters of any case, with a sign or without -/
def ofText? (text : String) : Option Binary64 :=
  let read (negative : Bool) (cs : List Char) : Option Binary64 :=
    if cs = "nan".toList then some (.nan negative)
    else if cs = "inf".toList ∨ cs = "infinity".toList then some (.infinite negative)
    else ofMagnitude? negative cs
  match text.toList.map Char.toLower with
  | '-' :: cs => read true cs
  | '+' :: cs => read false cs
  | cs => read false cs

end DeskClock.Binary64
