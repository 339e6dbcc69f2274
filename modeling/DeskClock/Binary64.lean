/-!
# floating-point numbers of 64 bits

* `Binary64`              a sign with the rank of the absolute value among the finite ones (rank 0 is
                          zero), a sign with infinity, or a sign with no number at all;
* `Binary64.units`        the absolute value of a rank, in units of `2 ^ -1074`;
* `Binary64.ofRatio`      the number nearest to a fraction, a tie going to the even rank;
* `Binary64.ofDecimal`    the number nearest to a decimal fraction;
* `Binary64.mul`, `div`   the exact product or quotient, rounded once;
* `Binary64.toBits`, `ofBits`   the word of 64 bits.

The rank of a finite number is its word without the sign, so ranks are ordered as the absolute
values are, and the rank after the last one is that of infinity.
-/

namespace DeskClock

/-- the integer nearest to `num / den`, a tie going to the even one -/
def roundHalfEven (num den : Nat) : Nat :=
  let q := num / den
  let r := 2 * (num % den)
  if r < den then q else if den < r then q + 1 else q + q % 2

inductive Binary64 where
  | nan (negative : Bool)
  | infinite (negative : Bool)
  | finite (negative : Bool) (rank : Fin (2047 * Nat.pow 2 52))
deriving DecidableEq

namespace Binary64

def zero (negative : Bool) : Binary64 := .finite negative ⟨0, by decide⟩

instance : Inhabited Binary64 := ⟨zero false⟩

def isFinite : Binary64 → Bool
  | .finite _ _ => true
  | _ => false

/-- the absolute value of a rank in units of `2 ^ -1074`: from `2 ^ 52` on, a leading one and the
low 52 bits of the rank, shifted by the high bits -/
def units (rank : Nat) : Nat :=
  if rank < Nat.pow 2 52 then rank
  else (Nat.pow 2 52 + rank % Nat.pow 2 52) * Nat.pow 2 (rank / Nat.pow 2 52 - 1)

/-- the binary places of a unit; the powers with this exponent are too long to be computed in proofs -/
@[irreducible] def unitPlaces : Nat := 1074

/-- units in one -/
def unit : Nat := Nat.pow 2 unitPlaces

/-- the number with a sign and a rank, infinite from the rank after the last one -/
def ofRank (negative : Bool) (rank : Nat) : Binary64 :=
  if h : rank < 2047 * Nat.pow 2 52 then .finite negative ⟨rank, h⟩ else .infinite negative

/-- the rank nearest to `num / den` units: the quotient is rounded to 53 bits, and a carry out of
them moves on to the next rank by itself -/
def nearestRank (num den : Nat) : Nat :=
  let shift := (num / den).log2 - 52
  shift * Nat.pow 2 52 + roundHalfEven num (den * Nat.pow 2 shift)

/-- the number nearest to `num / den` -/
def ofRatio (negative : Bool) (num den : Nat) : Binary64 :=
  ofRank negative (nearestRank (num * unit) den)

def ofNat (n : Nat) : Binary64 := ofRatio false n 1

def ofInt (n : Int) : Binary64 := ofRatio (n < 0) n.natAbs 1

/-- the number nearest to `digits * 10 ^ exponent`; beyond these exponents the answer is known
without the power -/
def ofDecimal (negative : Bool) (digits : Nat) (exponent : Int) : Binary64 :=
  if digits = 0 then zero negative
  else if 400 < exponent then .infinite negative
  else if exponent + digits.log2 + 1 < -400 then zero negative
  else if 0 ≤ exponent then ofRatio negative (digits * Nat.pow 10 exponent.toNat) 1
  else ofRatio negative digits (Nat.pow 10 (-exponent).toNat)

def neg : Binary64 → Binary64
  | .nan negative => .nan (!negative)
  | .infinite negative => .infinite (!negative)
  | .finite negative rank => .finite (!negative) rank

def mul : Binary64 → Binary64 → Binary64
  | .nan s, _ => .nan s
  | _, .nan s => .nan s
  | .infinite s, .infinite t => .infinite (s != t)
  | .infinite s, .finite t n => if n.val = 0 then .nan (s != t) else .infinite (s != t)
  | .finite s m, .infinite t => if m.val = 0 then .nan (s != t) else .infinite (s != t)
  | .finite s m, .finite t n => ofRatio (s != t) (units m * units n) (unit * unit)

def div : Binary64 → Binary64 → Binary64
  | .nan s, _ => .nan s
  | _, .nan s => .nan s
  | .infinite s, .infinite t => .nan (s != t)
  | .infinite s, .finite t _ => .infinite (s != t)
  | .finite s _, .infinite t => zero (s != t)
  | .finite s m, .finite t n =>
    if n.val = 0 then (if m.val = 0 then .nan (s != t) else .infinite (s != t))
    else ofRatio (s != t) (units m) (units n)

/-- the word of a sign and of 63 other bits -/
def word (negative : Bool) (bits : Nat) : UInt64 :=
  UInt64.ofNat ((if negative then Nat.pow 2 63 else 0) + bits)

def toBits : Binary64 → UInt64
  | .nan negative => word negative (2047 * Nat.pow 2 52 + Nat.pow 2 51)
  | .infinite negative => word negative (2047 * Nat.pow 2 52)
  | .finite negative rank => word negative rank

def ofBits (bits : UInt64) : Binary64 :=
  let negative := decide (Nat.pow 2 63 ≤ bits.toNat)
  let rank := bits.toNat % Nat.pow 2 63
  if 2047 * Nat.pow 2 52 < rank then .nan negative else ofRank negative rank

/-- the integer nearest to an absolute value, a tie going to the even one -/
def nearestInteger (rank : Nat) : Nat := roundHalfEven (units rank) unit

end Binary64

end DeskClock
