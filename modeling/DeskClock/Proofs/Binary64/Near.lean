import DeskClock.Proofs.Binary64.Exact

/-!
# decimals of many digits

* `units_nearestRank_bounds`   rounding a whole number changes it by a part in `2 ^ 53` at most;
* `nearestRank_near`           a decimal whose digits are rounded first is off by one rank at most;
* `IsNear`                     two floats that are equal or neighbours;
* `IsModerate`                 the floats from a millionth up to below `10 ^ 15`;
* `shortest_of_moderate`       seventeen digits are enough for them.

A whole number is rounded by a part in `2 ^ 53`, and two gaps between ranks are more than that. So the
quotient stays in the interval of its rank or goes over into the next one.
-/

namespace DeskClock.Binary64

open Json

/-! ## rounding twice -/

/-- two gaps between ranks are more than a part in `2 ^ 53` of the ranks below -/
theorem units_add_lt (rank : Nat) :
    units rank * (2 ^ 53 + 1) + units (rank + 1) < units (rank + 2) * 2 ^ 53 := by
  obtain ⟨s, m, rfl, hm, hs⟩ := exists_shift rank
  have hsucc : (m + 2) * 2 ^ s ≤ units (s * 2 ^ 52 + m + 2) := by
    rcases Nat.lt_or_eq_of_le (Nat.succ_le_of_lt hm) with h | h
    · rw [show s * 2 ^ 52 + m + 2 = s * 2 ^ 52 + (m + 1) + 1 by omega, units_succ_shift h (by omega)]
    · rw [show s * 2 ^ 52 + m + 2 = (s + 1) * 2 ^ 52 + (2 ^ 52 + 1) by omega,
        units_shift (by omega) (by omega), pow_succ]
      calc (m + 2) * 2 ^ s ≤ (2 ^ 52 + 1) * 2 * 2 ^ s := Nat.mul_le_mul_right _ (by omega)
        _ = (2 ^ 52 + 1) * (2 ^ s * 2) := by ring
  rw [units_succ_shift hm hs, units_shift hm.le hs]
  calc m * 2 ^ s * (2 ^ 53 + 1) + (m + 1) * 2 ^ s = (m * 2 ^ 53 + m + (m + 1)) * 2 ^ s := by ring
    _ < (m * 2 ^ 53 + 2 ^ 54) * 2 ^ s := Nat.mul_lt_mul_of_pos_right (by omega) (Nat.two_pow_pos s)
    _ = (m + 2) * 2 ^ s * 2 ^ 53 := by ring
    _ ≤ units (s * 2 ^ 52 + m + 2) * 2 ^ 53 := Nat.mul_le_mul_right _ hsucc

/-- **Rounding changes a number by a part in `2 ^ 53` at most**, unless it is among the lowest. -/
theorem units_nearestRank_bounds {num : Nat} (h : 2 ^ 52 < nearestRank num 1) :
    units (nearestRank num 1) * (2 ^ 53 + 1) ≤ num * (2 ^ 53 + 2) ∧
      num * 2 ^ 53 ≤ units (nearestRank num 1) * (2 ^ 53 + 1) := by
  obtain ⟨hlow, hhigh, -⟩ := (Interval.contains_iff _ _ _).mp (contains_nearestRank num Nat.one_pos)
  generalize nearestRank num 1 = rank at h hlow hhigh ⊢
  have hup := units_succ_mul_le h.le
  have hdown := units_succ_mul_le (Nat.le_sub_one_of_lt h)
  rw [Nat.sub_add_cancel (by omega)] at hdown
  change 2 * (units (rank - 1) + units rank) * 1 ≤ 4 * num at hlow
  change 4 * num ≤ 2 * (units rank + units (rank + 1)) * 1 at hhigh
  generalize units (rank - 1) = below at hdown hlow
  generalize units (rank + 1) = above at hup hhigh
  generalize units rank = value at *
  constructor
  · linarith
  · linarith

/-- the interval of the next rank ends further up than rounding can lead -/
theorem high_mul_lt (rank : Nat) :
    (interval rank).high * (2 ^ 53 + 2) < (interval (rank + 1)).high * (2 ^ 53 + 1) := by
  have hgap := units_add_lt rank
  have h1 := units_lt_succ rank
  have h2 := units_lt_succ (rank + 1)
  show 2 * (units rank + units (rank + 1)) * (2 ^ 53 + 2)
    < 2 * (units (rank + 1) + units (rank + 2)) * (2 ^ 53 + 1)
  change units (rank + 1) < units (rank + 2) at h2
  linarith

/-- and that of the rank below starts further down -/
theorem low_mul_lt {rank : Nat} (h : 2 ≤ rank) :
    (interval (rank - 1)).low * (2 ^ 53 + 1) < (interval rank).low * 2 ^ 53 := by
  obtain ⟨k, rfl⟩ : ∃ k, rank = k + 2 := ⟨rank - 2, by omega⟩
  have hgap := units_add_lt k
  show 2 * (units k + units (k + 1)) * (2 ^ 53 + 1) < 2 * (units (k + 1) + units (k + 2)) * 2 ^ 53
  linarith

/-- **A decimal whose digits are rounded first** is off by one rank at most. -/
theorem nearestRank_near {num den rank : Nat} (hd : 0 < den) (hr : 2 ≤ rank)
    (hnum : 2 ^ 52 < nearestRank num 1) (h : (interval rank).contains (4 * num) den = true) :
    nearestRank (units (nearestRank num 1)) den ≤ rank + 1 ∧
      rank ≤ nearestRank (units (nearestRank num 1)) den + 1 := by
  obtain ⟨hlow, hhigh, -⟩ := (Interval.contains_iff _ _ _).mp h
  obtain ⟨hmost, hleast⟩ := units_nearestRank_bounds hnum
  obtain ⟨hlow', hhigh', -⟩ := (Interval.contains_iff _ _ _).mp
    (contains_nearestRank (units (nearestRank num 1)) hd)
  generalize units (nearestRank num 1) = rounded at hmost hleast hlow' hhigh' ⊢
  generalize nearestRank rounded den = found at hlow' hhigh' ⊢
  constructor
  · -- else the number lies above the interval of the next rank
    by_contra hlt
    have hend := Nat.mul_le_mul_right den (high_le_low (Nat.lt_of_not_le hlt))
    have hgap := Nat.mul_lt_mul_of_pos_right (high_mul_lt rank) hd
    generalize (interval rank).high = top at hhigh hgap
    generalize (interval (rank + 1)).high = top' at hend hgap
    have habove := Nat.mul_le_mul_right (2 ^ 53 + 1) (hend.trans hlow')
    have hscaled := Nat.mul_le_mul_right (2 ^ 53 + 2) hhigh
    linarith
  · -- else it lies below the interval of the rank before
    by_contra hlt
    have hend := Nat.mul_le_mul_right den (high_le_low (show found < rank - 1 by omega))
    have hgap := Nat.mul_lt_mul_of_pos_right (low_mul_lt hr) hd
    generalize (interval rank).low = bottom at hlow hgap
    generalize (interval (rank - 1)).low = bottom' at hend hgap
    have hbelow := Nat.mul_le_mul_right (2 ^ 53 + 1) (hhigh'.trans hend)
    have hscaled := Nat.mul_le_mul_right (2 ^ 53) hlow
    linarith

theorem lt_nearestRank_ofNat {n : Nat} (h : 0 < n) : 2 ^ 52 < nearestRank (n * unit) 1 := by
  refine lt_rank_of_le (le_trans ?_ (unit_le_units h))
  rw [unit_eq]
  exact Nat.pow_le_pow_right (by omega) (by rw [unitPlaces_eq]; omega)

/-- a whole number divided by one that is a float -/
theorem ofNat_div_near {a b rank : Nat} (ha : 0 < a) (hmost : a ≤ 2 ^ 52 * 2 ^ 971) (hb : IsExact b)
    (hpos : 0 < b) (hr : 2 ≤ rank) (h : (interval rank).contains (a * (4 * unit)) b = true) :
    ∃ found, (ofNat a).div (ofNat b) = ofRank false found ∧ found ≤ rank + 1 ∧ rank ≤ found + 1 := by
  have e : a * (4 * unit) = 4 * (a * unit) := by ring
  rw [e] at h
  exact ⟨_, ofNat_div (nearestRank_lt hmost) hb hpos, nearestRank_near hpos hr (lt_nearestRank_ofNat ha) h⟩

/-! ## seventeen digits -/

/-- Two numbers with the same sign that are equal or neighbours. -/
def IsNear (x y : Binary64) : Prop :=
  ∃ (negative : Bool) (rank found : Fin (2047 * Nat.pow 2 52)), x = .finite negative rank ∧
    y = .finite negative found ∧ found.val ≤ rank.val + 1 ∧ rank.val ≤ found.val + 1

/-- The numbers from a millionth up to below `10 ^ 15`, with any sign. -/
def IsModerate : Binary64 → Prop
  | .finite _ rank => unit ≤ units rank * 10 ^ 6 ∧ units rank < unit * 10 ^ 15
  | _ => False

section

variable {rank : Nat}

/-- the interval of a rank is wider than a part in `10 ^ 16` of its value -/
theorem two_mul_units_lt (h : 2 ^ 52 < rank) :
    2 * units rank + units (rank - 1) * 10 ^ 16 < units (rank + 1) * 10 ^ 16 := by
  have hgap := units_add_lt (rank - 1)
  have hdown := units_succ_mul_le (Nat.le_sub_one_of_lt h)
  have hpos : 0 < units rank := units_pos (by omega)
  rw [show rank - 1 + 2 = rank + 1 by omega] at hgap
  rw [Nat.sub_add_cancel (by omega)] at hdown hgap
  linarith

/-- a grid has a point if the value has `10 ^ 16` steps on it at least -/
theorem isSome_onGrid?_of_le {places : Nat} (h : 2 ^ 52 < rank)
    (hsteps : unit * 10 ^ 16 ≤ units rank * 10 ^ places) :
    ((interval rank).onGrid? .toEven (4 * unit) (10 ^ places)).isSome = true := by
  have hten : 0 < 10 ^ places := Nat.pow_pos (by omega)
  have hwide := Nat.mul_lt_mul_of_pos_right (two_mul_units_lt h) hten
  refine Interval.isSome_onGrid? (Nat.mul_pos (by omega) unit_pos)
    (Nat.mul_lt_mul_of_pos_right (low_lt_middle (by omega)) hten)
    (Nat.mul_lt_mul_of_pos_right (middle_lt_high rank) hten) ?_
  show 2 * (units (rank - 1) + units rank) * 10 ^ places + 4 * unit
    < 2 * (units rank + units (rank + 1)) * 10 ^ places
  generalize 10 ^ places = t at hsteps hwide ⊢
  linarith

/-- a place on which the value has seventeen digits -/
theorem exists_places (hleast : unit ≤ units rank * 10 ^ 6) (hmost : units rank < unit * 10 ^ 15) :
    ∃ places, 0 < places ∧ places ≤ 22 ∧ unit * 10 ^ 16 ≤ units rank * 10 ^ places ∧
      units rank * 10 ^ places < unit * 10 ^ 17 := by
  have hlast : unit * 10 ^ 16 ≤ units rank * 10 ^ 22 := by linarith
  have hfind : ∃ places, unit * 10 ^ 16 ≤ units rank * 10 ^ places := ⟨22, hlast⟩
  have hpos : Nat.find hfind ≠ 0 := by
    intro h0
    have hzero := Nat.find_spec hfind
    rw [h0, pow_zero] at hzero
    omega
  refine ⟨Nat.find hfind, Nat.pos_of_ne_zero hpos, Nat.find_min' hfind hlast, Nat.find_spec hfind, ?_⟩
  obtain ⟨before, hbefore⟩ := Nat.exists_eq_succ_of_ne_zero hpos
  have hfew := Nat.find_min hfind (show before < Nat.find hfind by omega)
  rw [hbefore, Nat.succ_eq_add_one, pow_succ, ← Nat.mul_assoc]
  omega

theorem two_pow_le_of_moderate (hleast : unit ≤ units rank * 10 ^ 6) :
    2 ^ (unitPlaces - 20) ≤ units rank := by
  have hplaces : unitPlaces = unitPlaces - 20 + 20 := by
    rw [unitPlaces_eq]
  have hmore : units rank * 10 ^ 6 ≤ units rank * 2 ^ 20 := Nat.mul_le_mul_left _ (by decide)
  rw [unit_eq, hplaces, pow_add] at hleast
  exact Nat.le_of_mul_le_mul_right (hleast.trans hmore) (Nat.two_pow_pos 20)

theorem normal_of_moderate (hleast : unit ≤ units rank * 10 ^ 6) : 2 ^ 52 < rank := by
  refine lt_rank_of_le (le_trans ?_ (two_pow_le_of_moderate hleast))
  exact Nat.pow_le_pow_right (by omega) (by rw [unitPlaces_eq]; omega)

/-- the search starts above the last of seventeen digits -/
theorem neg_le_startPower_of_le {places : Nat} (hleast : unit ≤ units rank * 10 ^ 6)
    (hsteps : unit * 10 ^ 16 ≤ units rank * 10 ^ places) : -(places : Int) ≤ startPower rank := by
  have hlog := two_pow_le_of_moderate hleast
  have hne : units rank ≠ 0 := (Nat.two_pow_pos _).trans_le hlog |>.ne'
  have hmost := (Nat.le_log2 hne).mpr hlog
  rw [unitPlaces_eq] at hmost
  unfold startPower
  by_cases hone : unit ≤ units rank
  · rw [unit_eq] at hone
    have hmost := (Nat.le_log2 hne).mpr hone
    rw [unitPlaces_eq] at hmost
    omega
  · have hplaces : 16 < places := by
      by_contra hle
      have hten : 10 ^ places ≤ 10 ^ 16 := Nat.pow_le_pow_right (by omega) (by omega)
      have hlt := Nat.mul_lt_mul_of_lt_of_le (Nat.lt_of_not_le hone) hten (by omega)
      omega
    omega

/-- there is room for a greater rank -/
theorem lt_of_moderate (hmost : units rank < unit * 10 ^ 15) : rank + 1 < 2047 * 2 ^ 52 := by
  by_contra h
  have hle : units (2047 * 2 ^ 52 - 1) ≤ units rank := units_le_units (by omega)
  have hlarge := Nat.mul_le_mul_right unit pow_ten_le_greatest
  rw [units_greatest] at hle
  rw [Nat.mul_comm] at hmost
  exact Nat.not_lt.mpr (hlarge.trans hle) hmost

/-- **The shortest digits of a moderate number** are about seventeen at most, with no more than 22 of them
behind the point; a whole number stays below `10 ^ 16`. -/
theorem shortest_of_moderate (hleast : unit ≤ units rank * 10 ^ 6)
    (hmost : units rank < unit * 10 ^ 15) :
    ∃ digits zeros places : Nat, shortest .toEven rank = (digits, (zeros : Int) - places) ∧
      places ≤ 22 ∧ digits * 10 ^ zeros ≤ 2 * 10 ^ 17 ∧
      (places ≤ zeros → digits * 10 ^ (zeros - places) < 10 ^ 16) := by
  have hnormal := normal_of_moderate hleast
  obtain ⟨places, hpos, hplaces, hsteps, hbelow⟩ := exists_places hleast hmost
  obtain ⟨digits, zeros, hshort, hcontains⟩ := shortest_of_grid (by omega)
    (neg_le_startPower_of_le hleast hsteps) (by omega) (isSome_onGrid?_of_le hnormal hsteps)
  have hhigh : digits * 10 ^ zeros * (4 * unit) ≤ 6 * units rank * 10 ^ places := by
    obtain ⟨-, h, -⟩ := (Interval.contains_iff _ _ _).mp hcontains
    exact h.trans (Nat.mul_le_mul_right _ (high_le_units (by omega)))
  refine ⟨digits, zeros, places, hshort, hplaces, ?_, fun hle => ?_⟩
  · refine Nat.le_of_mul_le_mul_right ?_ unit_pos
    linarith
  · have hten : 0 < 10 ^ places := Nat.pow_pos (by omega)
    have hwhole : digits * 10 ^ zeros = digits * 10 ^ (zeros - places) * 10 ^ places := by
      rw [Nat.mul_assoc, ← pow_add, Nat.sub_add_cancel hle]
    rw [hwhole] at hhigh
    have hunit : 0 < 4 * unit * 10 ^ places :=
      Nat.mul_pos (Nat.mul_pos (by omega) unit_pos) hten
    refine Nat.lt_of_mul_lt_mul_right (a := 4 * unit * 10 ^ places) ?_
    calc digits * 10 ^ (zeros - places) * (4 * unit * 10 ^ places)
        = digits * 10 ^ (zeros - places) * 10 ^ places * (4 * unit) := by ring
      _ ≤ 6 * units rank * 10 ^ places := hhigh
      _ < 6 * (unit * 10 ^ 15) * 10 ^ places :=
        Nat.mul_lt_mul_of_pos_right (Nat.mul_lt_mul_of_pos_left hmost (by omega)) hten
      _ = (6 * 10 ^ 15) * (unit * 10 ^ places) := by ring
      _ ≤ (4 * 10 ^ 16) * (unit * 10 ^ places) := Nat.mul_le_mul_right _ (by norm_num)
      _ = 10 ^ 16 * (4 * unit * 10 ^ places) := by ring

end

end DeskClock.Binary64
