import DeskClock.Proofs.Binary64.Range

/-!
# decimals of few digits

* `IsExact`               whole numbers that are floats, up to a significand of 53 bits;
* `IsExact.div`           the quotient of two such numbers is rounded once;
* `eq_of_contains`        two short decimals of one grid are not rounded to the same rank;
* `IsShortDecimal`        the floats nearest to decimals of few digits and places;
* `shortest_of_grid`      the shortest digits have no more places than a grid with a point;
* `shortest_of_decimal`   the shortest digits of such a float are those of the decimal, without the
                          zeros at their end.

The interval of a rank is narrow: no wider than a part in `2 ^ 52` of its value, unless the rank is among
the lowest. So a grid on which the value has fewer than `2 ^ 52` steps has one point in it at most.
-/

namespace DeskClock.Binary64

open Json

/-! ## whole numbers that are floats -/

/-- rounding leaves a whole number as it is -/
def IsExact (n : Nat) : Prop :=
  nearestRank (n * unit) 1 < 2047 * 2 ^ 52 ∧ units (nearestRank (n * unit) 1) = n * unit

/-- a significand that is too short is doubled as often as the shift allows -/
theorem exists_units_eq {m : Nat} (hm : m ≤ 2 ^ 53) (shift : Nat) :
    ∃ rank, units rank = m * 2 ^ shift ∧ rank ≤ shift * 2 ^ 52 + 2 ^ 53 := by
  induction shift generalizing m with
  | zero =>
    have hunits : units (0 * 2 ^ 52 + m) = m * 2 ^ 0 := units_shift hm (.inl rfl)
    have hle : m ≤ 0 * 2 ^ 52 + 2 ^ 53 := by omega
    rw [Nat.zero_mul, Nat.zero_add] at hunits
    exact ⟨m, hunits, hle⟩
  | succ shift ih =>
    by_cases h : 2 ^ 52 ≤ m
    · exact ⟨(shift + 1) * 2 ^ 52 + m, units_shift hm (.inr h), Nat.add_le_add_left hm _⟩
    · obtain ⟨rank, hunits, hle⟩ := ih (m := 2 * m) (by omega)
      have hmore : shift * 2 ^ 52 ≤ (shift + 1) * 2 ^ 52 := Nat.mul_le_mul_right _ (Nat.le_succ shift)
      refine ⟨rank, ?_, hle.trans (Nat.add_le_add_right hmore _)⟩
      rw [hunits, pow_succ]
      ring

theorem pos_of_units_pos {rank : Nat} (h : 0 < units rank) : 0 < rank := by
  rcases Nat.eq_zero_or_pos rank with rfl | hpos
  · cases h
  · exact hpos

/-- a whole number whose significand has 53 bits is a float -/
theorem isExact_of_eq {n m s : Nat} (hn : n = m * 2 ^ s) (hpos : 0 < n) (hm : m ≤ 2 ^ 53)
    (hs : s ≤ 970) : IsExact n := by
  obtain ⟨rank, hunits, hle⟩ := exists_units_eq hm (s + unitPlaces)
  have hvalue : units rank = n * unit := by
    rw [hunits, hn, unit_eq, pow_add, Nat.mul_assoc]
  have hrank : 0 < rank := pos_of_units_pos (by rw [hvalue]; exact Nat.mul_pos hpos unit_pos)
  have hlt : rank < 2047 * 2 ^ 52 := by
    rw [unitPlaces_eq] at hle
    omega
  rw [IsExact, ← hvalue, nearestRank_units hrank]
  exact ⟨hlt, rfl⟩

theorem isExact_of_le {n : Nat} (hpos : 0 < n) (h : n ≤ 2 ^ 53) : IsExact n :=
  isExact_of_eq (Nat.mul_one n).symm hpos h (Nat.zero_le _)

/-- a whole number that is not zero is not rounded below one -/
theorem unit_le_units {n : Nat} (h : 0 < n) : unit ≤ units (nearestRank (n * unit) 1) := by
  have hone : nearestRank (1 * unit) 1 ≤ nearestRank (n * unit) 1 :=
    nearestRank_le Nat.one_pos Nat.one_pos (Nat.mul_le_mul_right _ (Nat.mul_le_mul_right _ h))
  have hunits := units_le_units hone
  rw [(isExact_of_le Nat.one_pos (by omega)).2, Nat.one_mul] at hunits
  exact hunits

theorem isExact_pow_ten {places : Nat} (h : places ≤ 22) : IsExact (10 ^ places) := by
  refine isExact_of_eq (m := 5 ^ places) (Nat.mul_pow 5 2 places) (Nat.pow_pos (by omega)) ?_
    (by omega)
  exact (Nat.pow_le_pow_right (by omega) h).trans (by decide)

theorem nearestRank_mul {num den k : Nat} (hd : 0 < den) (hk : 0 < k) :
    nearestRank (num * k) (den * k) = nearestRank num den := by
  have hc := Interval.contains_mul k hk (contains_nearestRank num hd)
  rw [Nat.mul_assoc] at hc
  exact nearestRank_eq (Nat.mul_pos hd hk) hc

/-- a whole number, which is rounded first, divided by one that is a float -/
theorem ofNat_div {a b : Nat} (ha : nearestRank (a * unit) 1 < 2047 * 2 ^ 52) (hb : IsExact b)
    (hpos : 0 < b) :
    (ofNat a).div (ofNat b) = ofRank false (nearestRank (units (nearestRank (a * unit) 1)) b) := by
  have hb0 : nearestRank (b * unit) 1 ≠ 0 :=
    (pos_of_units_pos (by rw [hb.2]; exact Nat.mul_pos hpos unit_pos)).ne'
  rw [ofNat_of_lt ha, ofNat_of_lt hb.1, Binary64.div]
  dsimp only
  rw [if_neg hb0, hb.2, ofRatio, nearestRank_mul hpos unit_pos]
  rfl

/-- **The quotient of two whole numbers that are floats is rounded once**, to the rank in whose interval
it lies. -/
theorem IsExact.div {a b : Nat} (ha : IsExact a) (hb : IsExact b) (hpos : 0 < b)
    {rank : Fin (2047 * Nat.pow 2 52)}
    (h : (interval rank).contains (a * (4 * unit)) b = true) :
    (ofNat a).div (ofNat b) = .finite false rank := by
  have e : a * (4 * unit) = 4 * (a * unit) := by ring
  rw [e] at h
  rw [ofNat_div ha.1 hb hpos, ha.2, nearestRank_eq hpos h, ofRank_fin]

/-! ## narrow intervals -/

theorem units_succ_mul_le {rank : Nat} (h : 2 ^ 52 ≤ rank) :
    units (rank + 1) * 2 ^ 52 ≤ units rank * (2 ^ 52 + 1) := by
  obtain ⟨s, m, rfl, hm, hs⟩ := exists_shift rank
  have hm52 : 2 ^ 52 ≤ m := by omega
  rw [units_succ_shift hm hs, units_shift hm.le hs]
  calc (m + 1) * 2 ^ s * 2 ^ 52 = (m * 2 ^ 52 + 2 ^ 52) * 2 ^ s := by ring
    _ ≤ (m * 2 ^ 52 + m) * 2 ^ s := Nat.mul_le_mul_right _ (by omega)
    _ = m * 2 ^ s * (2 ^ 52 + 1) := by ring

theorem high_mul_le {rank : Nat} (h : 2 ^ 52 < rank) :
    (interval rank).high * 2 ^ 52 ≤ (interval rank).low * (2 ^ 52 + 1) := by
  have hup := units_succ_mul_le h.le
  have hdown := units_succ_mul_le (Nat.le_sub_one_of_lt h)
  rw [Nat.sub_add_cancel (by omega)] at hdown
  calc 2 * (units rank + units (rank + 1)) * 2 ^ 52
      = 2 * (units rank * 2 ^ 52) + 2 * (units (rank + 1) * 2 ^ 52) := by ring
    _ ≤ 2 * (units (rank - 1) * (2 ^ 52 + 1)) + 2 * (units rank * (2 ^ 52 + 1)) :=
      Nat.add_le_add (Nat.mul_le_mul_left 2 hdown) (Nat.mul_le_mul_left 2 hup)
    _ = 2 * (units (rank - 1) + units rank) * (2 ^ 52 + 1) := by ring

theorem le_of_contains_grid {rank num den a b : Nat} (hr : 2 ^ 52 < rank) (hn : 0 < num)
    (ha : (interval rank).contains (a * num) den = true)
    (hb : (interval rank).contains (b * num) den = true) (h : a < 2 ^ 52) : b ≤ a := by
  obtain ⟨hlow, -, -⟩ := (Interval.contains_iff _ _ _).mp ha
  obtain ⟨-, hhigh, -⟩ := (Interval.contains_iff _ _ _).mp hb
  have hnarrow := Nat.mul_le_mul_right den (high_mul_le hr)
  have hle : b * 2 ^ 52 * num ≤ a * (2 ^ 52 + 1) * num := by
    calc b * 2 ^ 52 * num = b * num * 2 ^ 52 := by ring
      _ ≤ (interval rank).high * den * 2 ^ 52 := Nat.mul_le_mul_right _ hhigh
      _ = (interval rank).high * 2 ^ 52 * den := by ring
      _ ≤ (interval rank).low * (2 ^ 52 + 1) * den := hnarrow
      _ = (interval rank).low * den * (2 ^ 52 + 1) := by ring
      _ ≤ a * num * (2 ^ 52 + 1) := Nat.mul_le_mul_right _ hlow
      _ = a * (2 ^ 52 + 1) * num := by ring
  have := Nat.le_of_mul_le_mul_right hle hn
  omega

/-- **Two short decimals of one grid are not rounded to the same rank.** -/
theorem eq_of_contains {rank num den a b : Nat} (hr : 2 ^ 52 < rank) (hn : 0 < num)
    (ha : (interval rank).contains (a * num) den = true)
    (hb : (interval rank).contains (b * num) den = true) (h : a < 2 ^ 52) : b = a := by
  have hle := le_of_contains_grid hr hn ha hb h
  exact Nat.le_antisymm hle (le_of_contains_grid hr hn hb ha (by omega))

/-! ## the search for the digits of a decimal -/

namespace Interval

variable {i : Interval} {tie : Tie} {num den digits : Nat}

theorem contains_of_between {a b c : Nat} (ha : i.contains a den = true) (hc : i.contains c den = true)
    (hab : a ≤ b) (hbc : b ≤ c) : i.contains b den = true := by
  obtain ⟨hl, -, hl'⟩ := (contains_iff _ _ _).mp ha
  obtain ⟨-, hh, hh'⟩ := (contains_iff _ _ _).mp hc
  refine (contains_iff _ _ _).mpr ⟨hl.trans hab, hbc.trans hh, fun hopen => ?_⟩
  have h1 := (hl' hopen).1
  have h2 := (hh' hopen).2
  omega

/-- a grid that has any point has a neighbour of the middle -/
theorem isSome_onGrid?_of_contains (hn : 0 < num) (hm : i.contains (i.middle * den) den = true)
    (h : i.contains (digits * num) den = true) : (i.onGrid? tie num den).isSome = true := by
  have hbelow : i.middle * den / num * num ≤ i.middle * den := Nat.div_mul_le_self _ _
  have habove : i.middle * den < (i.middle * den / num + 1) * num :=
    (Nat.div_lt_iff_lt_mul hn).mp (Nat.lt_succ_self _)
  refine isSome_onGrid?_of_or ?_
  generalize i.middle * den / num = below at hbelow habove ⊢
  rcases Nat.lt_or_ge below digits with hlt | hge
  · exact .inr (contains_of_between hm h habove.le (Nat.mul_le_mul_right _ hlt))
  · exact .inl (contains_of_between h hm (Nat.mul_le_mul_right _ hge) hbelow)

theorem step_neg_natCast (places : Nat) : step (-(places : Int)) = (4 * unit, 10 ^ places) := by
  by_cases h0 : places = 0
  · rw [h0]
    show step 0 = _
    rw [step_of_nonneg le_rfl, Int.toNat_zero, pow_zero, Nat.mul_one]
  · rw [step_of_neg (by omega), neg_neg, Int.toNat_natCast]

/-- a point of a coarse grid is a point of a finer one, with zeros behind its digits -/
theorem contains_finer {power : Int} {places zeros : Nat} (hp : power = zeros - places)
    (h : i.contains (digits * (step power).1) (step power).2 = true) :
    i.contains (digits * 10 ^ zeros * (4 * unit)) (10 ^ places) = true := by
  by_cases h0 : 0 ≤ power
  · have e : digits * (4 * unit * 10 ^ power.toNat) * 10 ^ places
        = digits * 10 ^ zeros * (4 * unit) := by
      have hzeros : zeros = power.toNat + places := by omega
      rw [hzeros, pow_add]
      ring
    have hc := contains_mul (10 ^ places) (Nat.pow_pos (by omega)) h
    rw [step_of_nonneg h0, e, Nat.one_mul] at hc
    exact hc
  · have e : digits * (4 * unit) * 10 ^ zeros = digits * 10 ^ zeros * (4 * unit) := by ring
    have hplaces : (-power).toNat + zeros = places := by omega
    have hc := contains_mul (10 ^ zeros) (Nat.pow_pos (by omega)) h
    rw [step_of_neg h0, e, ← pow_add, hplaces] at hc
    exact hc

end Interval

section

variable {rank digits places : Nat}

theorem high_le_units {rank : Nat} (hr : 0 < rank) : (interval rank).high ≤ 6 * units rank := by
  have h := units_le_two_mul hr
  show 2 * (units rank + units (rank + 1)) ≤ 6 * units rank
  omega

theorem pow_ten_le : ∀ places ≤ 22, 10 ^ places ≤ 2 ^ (3 * places + places / 3 + 1) := by
  decide

theorem pow_ten_le_unit (h : places ≤ 22) : 10 ^ places ≤ unit := by
  refine (pow_ten_le places h).trans ?_
  rw [unit_eq]
  exact Nat.pow_le_pow_right (by omega) (by rw [unitPlaces_eq]; omega)

/-- a decimal that is not zero is not small, if it has few places -/
theorem two_pow_le_units (hr : 0 < rank) (hd : 0 < digits) (hp : places ≤ 22)
    (h : (interval rank).contains (digits * (4 * unit)) (10 ^ places) = true) :
    2 ^ (1072 - (3 * places + places / 3)) ≤ units rank := by
  obtain ⟨-, hhigh, -⟩ := (Interval.contains_iff _ _ _).mp h
  have hle : 2 ^ (2 + 1074) ≤ units rank * 2 ^ (3 * places + places / 3 + 4) := by
    have hfour : (4 : Nat) = 2 ^ 2 := rfl
    calc 2 ^ (2 + 1074) = 1 * (4 * unit) := by
          rw [unit_eq, unitPlaces_eq, Nat.one_mul, hfour, pow_add]
      _ ≤ digits * (4 * unit) := Nat.mul_le_mul_right _ hd
      _ ≤ (interval rank).high * 10 ^ places := hhigh
      _ ≤ 8 * units rank * 2 ^ (3 * places + places / 3 + 1) :=
        Nat.mul_le_mul ((high_le_units hr).trans (by omega)) (pow_ten_le places hp)
      _ = units rank * 2 ^ (3 * places + places / 3 + 4) := by
        rw [show 3 * places + places / 3 + 4 = 3 * places + places / 3 + 1 + 3 by omega, pow_succ,
          pow_succ, pow_succ]
        ring
  rw [show 2 + 1074 = 1072 - (3 * places + places / 3) + (3 * places + places / 3 + 4) by omega,
    pow_add] at hle
  exact Nat.le_of_mul_le_mul_right hle (Nat.two_pow_pos _)

theorem lt_rank_of_le (h : 2 ^ 53 ≤ units rank) : 2 ^ 52 < rank := by
  by_contra hlt
  have hunits : units rank ≤ units (0 * 2 ^ 52 + 2 ^ 52) := units_le_units (by omega)
  rw [units_shift (by omega) (.inl rfl), pow_zero, Nat.mul_one] at hunits
  omega

theorem two_pow_lt_rank (hr : 0 < rank) (hd : 0 < digits) (hp : places ≤ 22)
    (h : (interval rank).contains (digits * (4 * unit)) (10 ^ places) = true) : 2 ^ 52 < rank :=
  lt_rank_of_le <| (Nat.pow_le_pow_right (by omega) (by omega)).trans (two_pow_le_units hr hd hp h)

theorem neg_le_startPower (hr : 0 < rank) (hd : 0 < digits) (hp : places ≤ 22)
    (h : (interval rank).contains (digits * (4 * unit)) (10 ^ places) = true) :
    -(places : Int) ≤ startPower rank := by
  have hlog : 1072 - (3 * places + places / 3) ≤ (units rank).log2 :=
    (Nat.le_log2 (units_pos hr).ne').mpr (two_pow_le_units hr hd hp h)
  unfold startPower
  omega

/-- a grid that has a point bounds the places of the shortest digits, which are a point of it too -/
theorem shortest_of_grid (hr : 0 < rank) (hstart : -(places : Int) ≤ startPower rank)
    (hleast : places ≤ 1074)
    (hgrid : ((interval rank).onGrid? .toEven (4 * unit) (10 ^ places)).isSome = true) :
    ∃ digits zeros : Nat, shortest .toEven rank = (digits, (zeros : Int) - places) ∧
      (interval rank).contains (digits * 10 ^ zeros * (4 * unit)) (10 ^ places) = true := by
  have hsome : ((interval rank).onGrid? .toEven (Interval.step (-(places : Int))).1
      (Interval.step (-(places : Int))).2).isSome = true := by
    rw [Interval.step_neg_natCast]
    exact hgrid
  have hfuel : startPower rank - -(places : Int) < ((startPower rank + 1076).toNat : Int) := by omega
  obtain ⟨digits, power, hsearch, hpower⟩ := Interval.exists_search hstart hfuel hsome
  have hshort : shortest .toEven rank = (digits, power) := by
    rw [shortest, hsearch]
    rfl
  have hcontains := shortest_contains .toEven hr
  rw [hshort] at hcontains
  obtain ⟨zeros, hzeros⟩ : ∃ zeros : Nat, power = zeros - places := ⟨(power + places).toNat, by omega⟩
  exact ⟨digits, zeros, by rw [hshort, hzeros], Interval.contains_finer hzeros hcontains⟩

/-- **The shortest digits of the float nearest to a decimal** are the digits of the decimal, without the
zeros at their end. -/
theorem shortest_of_decimal (hr : 0 < rank) (hd : 0 < digits) (hlt : digits < 2 ^ 52)
    (hp : places ≤ 22)
    (h : (interval rank).contains (digits * (4 * unit)) (10 ^ places) = true) :
    ∃ significant zeros : Nat, shortest .toEven rank = (significant, (zeros : Int) - places) ∧
      significant * 10 ^ zeros = digits := by
  have hunit : 0 < 4 * unit := Nat.mul_pos (by omega) unit_pos
  have hgrid : ((interval rank).onGrid? .toEven (4 * unit) (10 ^ places)).isSome = true :=
    Interval.isSome_onGrid?_of_contains hunit (contains_middle hr (Nat.pow_pos (by omega))) h
  obtain ⟨significant, zeros, hshort, hcontains⟩ :=
    shortest_of_grid hr (neg_le_startPower hr hd hp h) (by omega) hgrid
  exact ⟨significant, zeros, hshort,
    eq_of_contains (two_pow_lt_rank hr hd hp h) hunit h hcontains hlt⟩

end

/-! ## short decimals -/

/-- The nearest float to a decimal of up to fifteen digits, with up to 22 of them behind the point. -/
def IsShortDecimal (x : Binary64) : Prop :=
  ∃ (negative : Bool) (digits places : Nat), digits ≤ 10 ^ 15 ∧ places ≤ 22 ∧
    x = ofDecimal negative digits (-places)

theorem isShortDecimal_ofDecimal (negative : Bool) {digits places : Nat} (hd : digits ≤ 10 ^ 15)
    (hp : places ≤ 22) : IsShortDecimal (ofDecimal negative digits (-places)) :=
  ⟨negative, digits, places, hd, hp, rfl⟩

theorem pow_ten_le_greatest : 10 ^ 15 ≤ (2 ^ 53 - 1) * 2 ^ 971 := by decide +kernel

/-- a short decimal is zero, or its digits lie in the interval of a rank -/
theorem IsShortDecimal.cases {x : Binary64} (h : IsShortDecimal x) :
    (∃ negative, x = zero negative) ∨
    ∃ (negative : Bool) (rank : Fin (2047 * Nat.pow 2 52)) (digits places : Nat),
      x = .finite negative rank ∧ 0 < rank.val ∧ 0 < digits ∧ digits ≤ 10 ^ 15 ∧ places ≤ 22 ∧
      (interval rank).contains (digits * (4 * unit)) (10 ^ places) = true := by
  obtain ⟨negative, digits, places, hdigits, hplaces, rfl⟩ := h
  rcases Nat.eq_zero_or_pos digits with rfl | hd
  · exact .inl ⟨negative, rfl⟩
  right
  have hten : 0 < 10 ^ places := Nat.pow_pos (by omega)
  have hcontains := contains_nearestRank (digits * unit) hten
  have hle : nearestRank (digits * unit) (10 ^ places) ≤ 2047 * 2 ^ 52 - 1 := by
    refine nearestRank_le_of_le hten (by omega) ?_
    rw [units_greatest]
    exact (Nat.mul_le_mul_right _ (hdigits.trans pow_ten_le_greatest)).trans (Nat.le_mul_of_pos_right _ hten)
  have hpos : 0 < nearestRank (digits * unit) (10 ^ places) := by
    rcases Nat.eq_zero_or_pos (nearestRank (digits * unit) (10 ^ places)) with h | h
    · rw [h] at hcontains
      obtain ⟨-, hhigh, -⟩ := (Interval.contains_iff _ _ _).mp hcontains
      change 4 * (digits * unit) ≤ 2 * 10 ^ places at hhigh
      have hsmall := pow_ten_le_unit hplaces
      have hone := Nat.le_mul_of_pos_left unit hd
      have hunit := unit_pos
      omega
    · exact h
  have e : 4 * (digits * unit) = digits * (4 * unit) := by ring
  rw [e] at hcontains
  refine ⟨negative, ⟨_, Nat.lt_of_le_pred (by decide) hle⟩, digits, places, ?_, hpos, hd, hdigits, hplaces,
    hcontains⟩
  refine ofDecimal_eq negative (by exact hpos) (by omega) ?_
  rw [Interval.step_neg_natCast]
  exact hcontains

end DeskClock.Binary64
