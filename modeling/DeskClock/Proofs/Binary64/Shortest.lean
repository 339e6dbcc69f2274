import DeskClock.Proofs.Binary64.Rounding
import DeskClock.Proofs.Text.Digits

/-!
# the shortest digits read back

* `shortest_contains`    the shortest digits of a rank lie in its interval;
* `ofDecimal_eq`         a decimal in the interval of a rank is read as that rank;
* `positional_spec`      written without an exponent they are a whole part and a fraction that stand
                         for the same value.
-/

namespace DeskClock.Binary64

/-! ## reading a decimal -/

theorem ofRank_fin (negative : Bool) (rank : Fin (2047 * Nat.pow 2 52)) :
    ofRank negative rank = .finite negative rank := by
  rw [ofRank, dif_pos rank.isLt]

theorem ofRatio_eq (negative : Bool) {num den rank : Nat} (hd : 0 < den)
    (h : (interval rank).contains (num * (4 * unit)) den = true) :
    ofRatio negative num den = ofRank negative rank := by
  have e : num * (4 * unit) = 4 * (num * unit) := by ring
  rw [e] at h
  rw [ofRatio, nearestRank_eq hd h]

theorem Interval.step_of_nonneg {power : Int} (h : 0 ≤ power) :
    step power = (4 * unit * 10 ^ power.toNat, 1) := if_pos h

theorem Interval.step_of_neg {power : Int} (h : ¬ 0 ≤ power) :
    step power = (4 * unit, 10 ^ (-power).toNat) := if_neg h

theorem Interval.step_pos (power : Int) : 0 < (step power).2 := by
  by_cases h : 0 ≤ power
  · rw [step_of_nonneg h]
    exact Nat.one_pos
  · rw [step_of_neg h]
    exact Nat.pow_pos (by omega)

theorem low_pos {rank : Nat} (h : 0 < rank) : 2 ≤ (interval rank).low := by
  have hu := units_pos h
  show 2 ≤ 2 * (units (rank - 1) + units rank)
  omega

theorem unit_eq : unit = 2 ^ unitPlaces := rfl

theorem unitPlaces_eq : unitPlaces = 1074 := by
  rw [unitPlaces]

/-- thirteen binary places take no more than four decimal ones -/
theorem two_mul_two_pow_lt {n k : Nat} (h : n + 1 < 13 * k) : 2 * 2 ^ n < 10 ^ (4 * k) := by
  calc 2 * 2 ^ n = 2 ^ (n + 1) := (Nat.pow_succ' ..).symm
    _ < 2 ^ (13 * k) := Nat.pow_lt_pow_right (by omega) h
    _ = (2 ^ 13) ^ k := pow_mul 2 13 k
    _ ≤ (10 ^ 4) ^ k := Nat.pow_le_pow_left (by omega) k
    _ = 10 ^ (4 * k) := (pow_mul 10 4 k).symm

theorem two_mul_unit_lt : 2 * unit < 10 ^ (4 * 83) := by
  rw [unit_eq]
  exact two_mul_two_pow_lt (by rw [unitPlaces_eq]; omega)

/-- a decimal in the interval of a positive rank is not too small to be looked at -/
theorem not_tiny {digits den rank : Nat} {exponent : Nat} (hr : 0 < rank) (hden : den = 10 ^ exponent)
    (h : (interval rank).contains (digits * (4 * unit)) den = true) :
    exponent < digits.log2 + 1 + 4 * 83 := by
  obtain ⟨h1, -, -⟩ := (Interval.contains_iff _ _ _).mp h
  have h2 : 2 * 10 ^ exponent ≤ digits * (4 * unit) := by
    rw [hden] at h1
    exact (Nat.mul_le_mul_right _ (low_pos hr)).trans h1
  have h3 : digits < 2 ^ (digits.log2 + 1) := Nat.lt_log2_self
  have h4 : 2 ^ (digits.log2 + 1) ≤ 10 ^ (digits.log2 + 1) := Nat.pow_le_pow_left (by omega) _
  have h5 : 10 ^ exponent < 10 ^ (digits.log2 + 1 + 4 * 83) := by
    calc 10 ^ exponent ≤ digits * (2 * unit) := by linarith
      _ ≤ 10 ^ (digits.log2 + 1) * (2 * unit) := Nat.mul_le_mul_right _ (by omega)
      _ < 10 ^ (digits.log2 + 1) * 10 ^ (4 * 83) :=
          Nat.mul_lt_mul_of_pos_left two_mul_unit_lt (by positivity)
      _ = 10 ^ (digits.log2 + 1 + 4 * 83) := (pow_add ..).symm
  exact (Nat.pow_lt_pow_iff_right (by omega)).mp h5

/-- zero does not lie in the interval of a positive rank -/
theorem digits_pos {digits num den rank : Nat} (hr : 0 < rank) (hd : 0 < den)
    (h : (interval rank).contains (digits * num) den = true) : 0 < digits := by
  obtain ⟨h1, -, -⟩ := (Interval.contains_iff _ _ _).mp h
  have hl : 0 < (interval rank).low * den := Nat.mul_pos (by have := low_pos hr; omega) hd
  exact Nat.pos_of_mul_pos_right (hl.trans_le h1)

/-- **A decimal in the interval of a rank is read as that rank.** -/
theorem ofDecimal_eq (negative : Bool) {digits : Nat} {exponent : Int}
    {rank : Fin (2047 * Nat.pow 2 52)} (hr : 0 < rank.val) (he : exponent ≤ 400)
    (h : (interval rank).contains (digits * (Interval.step exponent).1)
      (Interval.step exponent).2 = true) :
    ofDecimal negative digits exponent = .finite negative rank := by
  have hd := (digits_pos hr (Interval.step_pos exponent) h).ne'
  rw [ofDecimal, if_neg hd, if_neg (by omega)]
  by_cases h0 : 0 ≤ exponent
  · rw [Interval.step_of_nonneg h0] at h
    have e : digits * (4 * unit * 10 ^ exponent.toNat)
        = digits * 10 ^ exponent.toNat * (4 * unit) := by ring
    rw [e] at h
    rw [if_neg (by omega), if_pos h0, Nat.pow_eq, ofRatio_eq negative Nat.one_pos h, ofRank_fin]
  · rw [Interval.step_of_neg h0] at h
    have ht := not_tiny hr rfl h
    rw [if_neg (by omega), if_neg h0, Nat.pow_eq, ofRatio_eq negative (Nat.pow_pos (by omega)) h,
      ofRank_fin]

/-! ## the digits that are found -/

namespace Interval

theorem onGrid?_contains {i : Interval} {tie : Tie} {num den digits : Nat}
    (h : i.onGrid? tie num den = some digits) : i.contains (digits * num) den = true := by
  unfold onGrid? at h
  generalize i.middle * den / num = below at h
  dsimp only at h
  cases hb : i.contains (below * num) den <;> cases ha : i.contains ((below + 1) * num) den <;>
    rw [hb, ha] at h
  · cases h
  · cases h
    exact ha
  · cases h
    exact hb
  · dsimp only at h
    split at h
    · cases h
      exact hb
    split at h
    · cases h
      exact ha
    cases tie with
    | up =>
      cases h
      exact ha
    | toEven =>
      cases h
      rcases Nat.mod_two_eq_zero_or_one below with e | e
      · rw [e]
        exact hb
      · rw [e]
        exact ha

theorem search_spec {i : Interval} {tie : Tie} {power : Int} {fuel digits : Nat} {found : Int}
    (h : i.search tie power fuel = some (digits, found)) :
    i.onGrid? tie (step found).1 (step found).2 = some digits ∧ found ≤ power ∧
      power - fuel < found := by
  induction fuel generalizing power with
  | zero => cases h
  | succ fuel ih =>
    rw [search] at h
    cases hg : i.onGrid? tie (step power).1 (step power).2 with
    | some d =>
      rw [hg] at h
      cases h
      exact ⟨hg, le_rfl, by omega⟩
    | none =>
      rw [hg] at h
      obtain ⟨h1, h2, h3⟩ := ih h
      exact ⟨h1, by omega, by omega⟩

end Interval

theorem low_lt_middle {rank : Nat} (hr : 0 < rank) : (interval rank).low < (interval rank).middle := by
  have h : units (rank - 1) < units rank := units_lt_units (by omega)
  show 2 * (units (rank - 1) + units rank) < 4 * units rank
  omega

theorem middle_lt_high (rank : Nat) : (interval rank).middle < (interval rank).high := by
  have h := units_lt_succ rank
  show 4 * units rank < 2 * (units rank + units (rank + 1))
  omega

theorem contains_middle {rank : Nat} (hr : 0 < rank) {den : Nat} (hd : 0 < den) :
    (interval rank).contains ((interval rank).middle * den) den = true := by
  have hl' := Nat.mul_lt_mul_of_pos_right (low_lt_middle hr) hd
  have hh' := Nat.mul_lt_mul_of_pos_right (middle_lt_high rank) hd
  exact (Interval.contains_iff _ _ _).mpr ⟨hl'.le, hh'.le, fun _ => ⟨hl'.ne, hh'.ne⟩⟩

/-- the value itself lies on the grid of as many decimal places as the unit has binary ones -/
theorem contains_own {rank : Nat} (hr : 0 < rank) :
    (interval rank).contains (units rank * 5 ^ unitPlaces * (4 * unit)) (10 ^ unitPlaces) = true := by
  have hp : 10 ^ unitPlaces = unit * 5 ^ unitPlaces := Nat.mul_pow 2 5 unitPlaces
  have e : units rank * 5 ^ unitPlaces * (4 * unit) = (interval rank).middle * 10 ^ unitPlaces := by
    show _ = 4 * units rank * 10 ^ unitPlaces
    rw [hp]
    ring
  rw [e]
  exact contains_middle hr (Nat.pow_pos (by omega))

/-- **The shortest digits lie in the interval of their rank.** -/
theorem shortest_contains (tie : Tie) {rank : Nat} (hr : 0 < rank) :
    (interval rank).contains
      ((shortest tie rank).1 * (Interval.step (shortest tie rank).2).1)
      (Interval.step (shortest tie rank).2).2 = true := by
  unfold shortest
  dsimp only
  cases h : (interval rank).search tie (startPower rank) (startPower rank + 1076).toNat with
  | some found =>
    obtain ⟨h1, -, -⟩ := Interval.search_spec h
    exact Interval.onGrid?_contains h1
  | none =>
    have hneg : ¬ 0 ≤ -(unitPlaces : Int) := by
      rw [unitPlaces_eq]
      omega
    rw [Option.getD_none, Interval.step_of_neg hneg, neg_neg, Int.toNat_natCast]
    exact contains_own hr

theorem le_shortest_power (tie : Tie) (rank : Nat) : -1075 ≤ (shortest tie rank).2 := by
  unfold shortest
  dsimp only
  cases h : (interval rank).search tie (startPower rank) (startPower rank + 1076).toNat with
  | some found =>
    obtain ⟨-, h2, h3⟩ := Interval.search_spec h
    show -1075 ≤ found.2
    omega
  | none =>
    show (-1075 : Int) ≤ -(unitPlaces : Int)
    rw [unitPlaces_eq]
    omega

theorem shortest_pos (tie : Tie) {rank : Nat} (hr : 0 < rank) : 0 < (shortest tie rank).1 :=
  digits_pos hr (Interval.step_pos _) (shortest_contains tie hr)

/-! ## digits without an exponent -/

theorem positional_of_nonneg {digits : Nat} (hd : 0 < digits) {power : Int} (h : 0 ≤ power) :
    positional digits power = Digits.ofNat (digits * 10 ^ power.toNat) ++ ['.', '0'] := by
  rw [positional, if_pos h, Digits.ofNat_mul_pow hd]

theorem positional_of_neg (digits : Nat) {power : Int} (h : ¬ 0 ≤ power) :
    ∃ fraction, positional digits power
        = Digits.ofNat (digits / 10 ^ (-power).toNat) ++ '.' :: fraction ∧
      fraction.length = (-power).toNat ∧ (∀ c ∈ fraction, c.isDigit = true) ∧
      Digits.value (Digits.ofNat (digits / 10 ^ (-power).toNat) ++ fraction) = digits := by
  obtain ⟨fraction, h1, h2⟩ := Digits.padded_eq (-power).toNat digits
  have hl : (Digits.padded ((-power).toNat + 1) digits).length - (-power).toNat
      = (Digits.ofNat (digits / 10 ^ (-power).toNat)).length := by
    rw [h1, List.length_append, h2, Nat.add_sub_cancel]
  refine ⟨fraction, ?_, h2, ?_, ?_⟩
  · rw [positional, if_neg h]
    dsimp only
    rw [hl, h1, List.take_left, List.drop_left]
  · intro c hc
    have hm : c ∈ Digits.padded ((-power).toNat + 1) digits := by
      rw [h1]
      exact List.mem_append_right _ hc
    exact Digits.isDigit_of_mem_padded _ _ c hm
  · rw [← h1, Digits.value_padded]

/-- **Digits with a point among them stand for the value they are written for.** The whole part has
no needless zeros, and there is a fraction. -/
theorem positional_spec {digits : Nat} (hd : 0 < digits) (power : Int) :
    ∃ whole fraction, positional digits power = Digits.ofNat whole ++ '.' :: fraction ∧
      fraction ≠ [] ∧ (∀ c ∈ fraction, c.isDigit = true) ∧
      ∀ i : Interval, i.contains (digits * (Interval.step power).1) (Interval.step power).2 = true →
        i.contains (Digits.value (Digits.ofNat whole ++ fraction) *
          (Interval.step (-fraction.length)).1) (Interval.step (-fraction.length)).2 = true := by
  by_cases h : 0 ≤ power
  · refine ⟨digits * 10 ^ power.toNat, ['0'], positional_of_nonneg hd h, List.cons_ne_nil _ _,
      Digits.isDigit_of_mem_zero, ?_⟩
    intro i hi
    have e : digits * (4 * unit * 10 ^ power.toNat) * 10
        = (digits * 10 ^ power.toNat * 10 + 0) * (4 * unit) := by ring
    have hi' := Interval.contains_mul 10 (by omega) hi
    rw [Interval.step_of_nonneg h, e] at hi'
    rw [Digits.value_append, Digits.value_ofNat]
    exact hi'
  · obtain ⟨fraction, e, hl, hdigits, hv⟩ := positional_of_neg digits h
    refine ⟨digits / 10 ^ (-power).toNat, fraction, e, ?_, hdigits, ?_⟩
    · intro hn
      rw [hn] at hl
      have : (0 : Nat) = (-power).toNat := hl
      omega
    · intro i hi
      rw [hv, hl, Int.toNat_of_nonneg (by omega), neg_neg]
      exact hi

end DeskClock.Binary64
