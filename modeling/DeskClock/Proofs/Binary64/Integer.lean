import DeskClock.Proofs.Binary64.Shortest

/-!
# the integer nearest to a float

* `IsNearestEven`   the integer nearest to a number, a tie going to the even one;
* `isNearestEven_iff`   it is at most a half away, and even if it is a half away;
* `IsNearestEven.le`    so greater numbers have greater integers, and a number has one;
* `isNearestEven_roundHalfEven`   the quotient of two natural numbers is rounded to it;
* `Word.negative`, `exponent`, `fraction`   the fields of a word: a bit, eleven bits and 52 bits;
* `Word.value`      the exact value of a word whose exponent is not the greatest;
* `Word.magnitude_eq`   without its sign it is that of the rank;
* `ofBits_finite`, `ofBits_infinite`, `ofBits_nan`   what a word stands for;
* `ofBits_toBits`   every number has a word.
-/

namespace DeskClock

/-! ## nearest integers -/

/-- an integer to which none is nearer, and which is even if another is as near -/
structure IsNearestEven (x : ℚ) (n : ℤ) : Prop where
  nearest : ∀ k : ℤ, |x - n| ≤ |x - k|
  even : ∀ k : ℤ, k ≠ n → |x - k| = |x - n| → Even n

/-- two integers that are not one are at least one apart -/
theorem one_le_abs_add (x : ℚ) {n k : ℤ} (h : k ≠ n) : 1 ≤ |x - n| + |x - k| := by
  have hint : (1 : ℤ) ≤ |k - n| := Int.one_le_abs (sub_ne_zero.mpr h)
  have hone : (1 : ℚ) ≤ |(k : ℚ) - n| := by exact_mod_cast hint
  calc (1 : ℚ) ≤ |(k : ℚ) - n| := hone
    _ = |(x - n) - (x - k)| := by ring_nf
    _ ≤ |x - n| + |x - k| := abs_sub _ _

theorem isNearestEven_iff (x : ℚ) (n : ℤ) :
    IsNearestEven x n ↔ |x - n| ≤ 1 / 2 ∧ (|x - n| = 1 / 2 → Even n) := by
  constructor
  · intro h
    refine ⟨(h.nearest (round x)).trans (abs_sub_round x), fun hhalf => ?_⟩
    rcases (abs_eq (by norm_num)).mp hhalf with hx | hx
    · refine h.even (n + 1) (by omega) ?_
      have hup : x - ((n + 1 : ℤ) : ℚ) = -(1 / 2) := by
        push_cast
        linarith
      rw [hhalf, hup, abs_neg, abs_of_pos (by norm_num)]
    · refine h.even (n - 1) (by omega) ?_
      have hdown : x - ((n - 1 : ℤ) : ℚ) = 1 / 2 := by
        push_cast
        linarith
      rw [hhalf, hdown, abs_of_pos (by norm_num)]
  · rintro ⟨hle, heven⟩
    constructor
    · intro k
      by_cases hk : k = n
      · rw [hk]
      · have := one_le_abs_add x hk
        linarith
    · intro k hk htie
      have := one_le_abs_add x hk
      exact heven (by linarith)

namespace IsNearestEven

variable {x y : ℚ} {m n : ℤ}

theorem neg (h : IsNearestEven x n) : IsNearestEven (-x) (-n) := by
  rw [isNearestEven_iff] at h ⊢
  have hswap : -x - ((-n : ℤ) : ℚ) = -(x - n) := by push_cast; ring
  rw [hswap, abs_neg, even_neg]
  exact h

/-- **Greater numbers have greater nearest integers.** -/
theorem le (hx : IsNearestEven x m) (hy : IsNearestEven y n) (h : x ≤ y) : m ≤ n := by
  rw [isNearestEven_iff] at hx hy
  obtain ⟨hx, hxeven⟩ := hx
  obtain ⟨hy, hyeven⟩ := hy
  by_contra hlt
  have hlt : n + 1 ≤ m := by omega
  have hltq : (n : ℚ) + 1 ≤ m := by exact_mod_cast hlt
  have hx' := (abs_le.mp hx).1
  have hy' := (abs_le.mp hy).2
  -- both numbers are the half between two neighbours, one of which is odd
  have hm : |x - m| = 1 / 2 := by
    rw [show x - m = -(1 / 2) by linarith, abs_neg, abs_of_pos (by norm_num)]
  have hn : |y - n| = 1 / 2 := by
    rw [show y - n = 1 / 2 by linarith, abs_of_pos (by norm_num)]
  have hnext : m = n + 1 := by
    have hq : (m : ℚ) = n + 1 := by linarith
    exact_mod_cast hq
  have hodd := Even.add_one (hyeven hn)
  rw [← hnext, ← Int.not_even_iff_odd] at hodd
  exact hodd (hxeven hm)

theorem eq (hx : IsNearestEven x m) (hx' : IsNearestEven x n) : m = n :=
  le_antisymm (hx.le hx' le_rfl) (hx'.le hx le_rfl)

end IsNearestEven

/-- **A quotient is rounded to the nearest integer.** -/
theorem isNearestEven_roundHalfEven (num : Nat) {den : Nat} (hd : 0 < den) :
    IsNearestEven ((num : ℚ) / den) (roundHalfEven num den) := by
  obtain ⟨hlow, hhigh, hodd⟩ := roundHalfEven_spec num hd
  generalize roundHalfEven num den = r at hlow hhigh hodd
  have hd' : (0 : ℚ) < den := by exact_mod_cast hd
  obtain ⟨x, hx⟩ : ∃ x : ℚ, x = num / den := ⟨_, rfl⟩
  have hnum : (num : ℚ) = x * den := by rw [hx, div_mul_cancel₀ _ hd'.ne']
  have hlow' : 2 * ((r : ℚ) * den) ≤ 2 * num + den := by exact_mod_cast hlow
  have hhigh' : 2 * (num : ℚ) ≤ 2 * (r * den) + den := by exact_mod_cast hhigh
  rw [hnum] at hlow' hhigh'
  rw [← hx, isNearestEven_iff, Int.cast_natCast]
  refine ⟨abs_le.mpr ⟨?_, ?_⟩, fun hhalf => ?_⟩
  · have hle : 2 * (r : ℚ) * den ≤ (2 * x + 1) * den := by linarith
    have := le_of_mul_le_mul_right hle hd'
    linarith
  · have hle : 2 * x * den ≤ (2 * (r : ℚ) + 1) * den := by linarith
    have := le_of_mul_le_mul_right hle hd'
    linarith
  · rw [Int.even_coe_nat, Nat.even_iff]
    by_contra hne
    obtain ⟨hne1, hne2⟩ := hodd (by omega)
    rcases (abs_eq (by norm_num)).mp hhalf with hr | hr
    · apply hne2
      have hq : 2 * (num : ℚ) = 2 * (r * den) + den := by
        rw [hnum, show x = r + 1 / 2 by linarith]
        ring
      exact_mod_cast hq
    · apply hne1
      have hq : 2 * ((r : ℚ) * den) = 2 * num + den := by
        rw [hnum, show x = r - 1 / 2 by linarith]
        ring
      exact_mod_cast hq

/-! ## words -/

namespace Word

variable (bits : UInt64)

def negative : Bool := bits.toNat.testBit 63

def exponent : Nat := bits.toNat / 2 ^ 52 % 2 ^ 11

def fraction : Nat := bits.toNat % 2 ^ 52

/-- the exact value without the sign; with the least exponent there is no leading one -/
def magnitude : ℚ :=
  if exponent bits = 0 then fraction bits * 2 ^ (-1074 : ℤ)
  else (2 ^ 52 + fraction bits) * 2 ^ ((exponent bits : ℤ) - 1075)

/-- the exact value -/
def value : ℚ := if negative bits then -magnitude bits else magnitude bits

/-- a word with the greatest exponent stands for no finite number -/
def IsFinite : Prop := exponent bits < 2047

instance : Decidable (IsFinite bits) := inferInstanceAs (Decidable (_ < _))

theorem negative_eq : negative bits = decide (2 ^ 63 ≤ bits.toNat) := by
  have hbits := bits.toNat_lt
  rw [negative, Nat.testBit_eq_decide_div_mod_eq]
  exact decide_eq_decide.mpr (by omega)

/-- the rank of a word -/
def rank : Nat := exponent bits * 2 ^ 52 + fraction bits

theorem rank_eq : bits.toNat % 2 ^ 63 = rank bits := by
  unfold rank exponent fraction
  omega

theorem fraction_lt : fraction bits < 2 ^ 52 := Nat.mod_lt _ (by decide)

theorem units_rank : Binary64.units (rank bits) = if exponent bits = 0 then fraction bits
    else (2 ^ 52 + fraction bits) * 2 ^ (exponent bits - 1) := by
  have hfraction := fraction_lt bits
  have hmod : rank bits % 2 ^ 52 = fraction bits := by
    unfold rank
    omega
  have hdiv : rank bits / 2 ^ 52 = exponent bits := by
    unfold rank
    omega
  rw [Binary64.units_eq, hmod, hdiv]
  by_cases h : exponent bits = 0
  · rw [if_pos h, if_pos (by unfold rank; omega), rank, h, Nat.zero_mul, Nat.zero_add]
  · rw [if_neg h, if_neg (by unfold rank; omega)]

/-- **The exact value of a word is that of its rank.** -/
theorem magnitude_eq : magnitude bits = (Binary64.units (rank bits) : ℚ) / Binary64.unit := by
  have hunit : (Binary64.unit : ℚ) = 2 ^ (1074 : ℤ) := by
    rw [Binary64.unit_eq, Binary64.unitPlaces_eq, Nat.cast_pow, Nat.cast_ofNat, zpow_ofNat]
  rw [magnitude, units_rank, hunit]
  by_cases h : exponent bits = 0
  · rw [if_pos h, if_pos h, zpow_neg, div_eq_mul_inv]
  · have hexponent : (exponent bits : ℤ) - 1075 = ((exponent bits - 1 : ℕ) : ℤ) - 1074 := by omega
    rw [if_neg h, if_neg h, hexponent, zpow_sub₀ two_ne_zero, zpow_natCast, ← mul_div_assoc,
      Nat.cast_mul, Nat.cast_add, Nat.cast_pow, Nat.cast_pow, Nat.cast_ofNat]

end Word

namespace Binary64

open Word

variable {bits : UInt64}

theorem ofBits_eq (bits : UInt64) : ofBits bits =
    if 2047 * 2 ^ 52 < rank bits then .nan (negative bits) else ofRank (negative bits) (rank bits) := by
  rw [← rank_eq, negative_eq]
  rfl

theorem ofBits_finite (h : IsFinite bits) :
    ∃ hrank, ofBits bits = .finite (negative bits) ⟨rank bits, hrank⟩ := by
  have hfraction := fraction_lt bits
  have hrank : rank bits < 2047 * 2 ^ 52 := by
    unfold IsFinite at h
    unfold rank
    omega
  refine ⟨hrank, ?_⟩
  rw [ofBits_eq, if_neg (by omega)]
  exact dif_pos hrank

theorem exponent_eq_of_not_isFinite (h : ¬ IsFinite bits) : exponent bits = 2047 := by
  have hlt : exponent bits < 2 ^ 11 := Nat.mod_lt _ (by decide)
  unfold IsFinite at h
  omega

theorem ofBits_infinite (h : ¬ IsFinite bits) (hfraction : fraction bits = 0) :
    ofBits bits = .infinite (negative bits) := by
  have hrank : rank bits = 2047 * 2 ^ 52 := by
    rw [rank, exponent_eq_of_not_isFinite h, hfraction, Nat.add_zero]
  rw [ofBits_eq, hrank, if_neg (lt_irrefl _)]
  exact dif_neg (lt_irrefl _)

theorem ofBits_nan (h : ¬ IsFinite bits) (hfraction : fraction bits ≠ 0) :
    ofBits bits = .nan (negative bits) := by
  have hrank : 2047 * 2 ^ 52 < rank bits := by
    rw [rank, exponent_eq_of_not_isFinite h]
    omega
  rw [ofBits_eq, if_pos hrank]

theorem ofBits_word (negative : Bool) {n : Nat} (hn : n < 2 ^ 63) :
    ofBits (word negative n) = if 2047 * 2 ^ 52 < n then .nan negative else ofRank negative n := by
  have hnat : (word negative n).toNat = (if negative then 2 ^ 63 else 0) + n := by
    rw [word, UInt64.toNat_ofNat']
    refine Nat.mod_eq_of_lt ?_
    split
    · show 2 ^ 63 + n < 2 ^ 64
      omega
    · omega
  have hsign : decide (2 ^ 63 ≤ (word negative n).toNat) = negative := by
    rw [hnat]
    cases negative with
    | true => exact decide_eq_true (Nat.le_add_right _ _)
    | false => exact decide_eq_false (by rw [if_neg Bool.false_ne_true]; omega)
  have hrest : (word negative n).toNat % 2 ^ 63 = n := by
    rw [hnat]
    split
    · omega
    · omega
  rw [ofBits_eq, negative_eq, ← rank_eq, hsign, hrest]

/-- **Every number has a word.** -/
theorem ofBits_toBits (v : Binary64) : ofBits v.toBits = v := by
  cases v with
  | nan negative =>
    rw [toBits, ofBits_word negative (by decide)]
    exact if_pos (by decide)
  | infinite negative =>
    rw [toBits, ofBits_word negative (by decide), if_neg (by decide)]
    exact dif_neg (by decide)
  | finite negative rank =>
    have hrank : rank.val < 2047 * 2 ^ 52 := rank.isLt
    rw [toBits, ofBits_word negative (by omega), if_neg (by omega)]
    exact ofRank_fin negative rank

/-- **A float is rounded to the nearest integer.** -/
theorem isNearestEven_nearestInteger (bits : UInt64) :
    IsNearestEven (magnitude bits) (nearestInteger (rank bits)) := by
  rw [magnitude_eq]
  exact isNearestEven_roundHalfEven _ (Nat.two_pow_pos _)

end Binary64

end DeskClock
