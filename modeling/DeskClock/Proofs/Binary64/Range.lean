import DeskClock.Json.Number
import DeskClock.Proofs.Binary64.Shortest

/-!
# numbers near the end of the range

* `isFinite_ofRank`       a rank is that of a finite number below the rank of infinity;
* `units_nearestRank_le`  rounding raises a number by a third at most;
* `isFinite_mul_of_le`    the product of two whole numbers is finite if it is `2 ^ 1023` at most;
* `shortest_top`          the digits of the ranks with the greatest exponent are short;
* `isFinite_top`          and finite again when they are multiplied out.

Both factors are rounded before they are multiplied, so that a product may be infinite though the
nearest float to the exact one is not. Up to `2 ^ 1023` there is room enough; above, there are seventeen
powers of ten, and for each of them the greatest digits are tried.
-/

namespace DeskClock.Binary64

open Json

theorem isFinite_ofRank (negative : Bool) (rank : Nat) :
    (ofRank negative rank).isFinite = true ↔ rank < 2047 * 2 ^ 52 := by
  unfold ofRank
  split
  · next h => exact ⟨fun _ => h, fun _ => rfl⟩
  · next h => exact ⟨fun e => (by cases e), fun e => absurd e h⟩

theorem nearestRank_units {rank : Nat} (hr : 0 < rank) : nearestRank (units rank) 1 = rank := by
  refine nearestRank_eq Nat.one_pos ?_
  have hm := contains_middle hr Nat.one_pos
  rw [Nat.mul_one] at hm
  exact hm

theorem nearestRank_le_of_le {num den rank : Nat} (hd : 0 < den) (hr : 0 < rank)
    (h : num ≤ units rank * den) : nearestRank num den ≤ rank := by
  calc nearestRank num den ≤ nearestRank (units rank) 1 := nearestRank_le hd Nat.one_pos (by omega)
    _ = rank := nearestRank_units hr

/-! ## gaps between ranks -/

theorem units_add_le {k rank : Nat} (h : (k + 1) * 2 ^ 52 ≤ rank) :
    units rank + 2 ^ k ≤ units (rank + 1) := by
  obtain ⟨s, m, rfl, hm, hs⟩ := exists_shift rank
  have hk : k ≤ s := by omega
  rw [units_succ_shift hm hs, units_shift hm.le hs, Nat.succ_mul]
  exact Nat.add_le_add_left (Nat.pow_le_pow_right (by omega) hk) _

theorem units_le_two_mul {rank : Nat} (h : 0 < rank) : units (rank + 1) ≤ 2 * units rank := by
  obtain ⟨s, m, rfl, hm, hs⟩ := exists_shift rank
  have hpos : 0 < m := by omega
  rw [units_succ_shift hm hs, units_shift hm.le hs, ← Nat.mul_assoc]
  exact Nat.mul_le_mul_right _ (by omega)

/-- rounding raises a number by a third at most -/
theorem units_nearestRank_le (num : Nat) : 3 * units (nearestRank num 1) ≤ 4 * num := by
  obtain ⟨h, -, -⟩ := (Interval.contains_iff _ _ _).mp (contains_nearestRank num Nat.one_pos)
  generalize nearestRank num 1 = rank at h
  change 2 * (units (rank - 1) + units rank) * 1 ≤ 4 * num at h
  obtain rfl | rfl | ⟨k, rfl⟩ : rank = 0 ∨ rank = 1 ∨ ∃ k, rank = k + 2 := by
    by_cases h2 : 2 ≤ rank
    · exact .inr (.inr ⟨rank - 2, by omega⟩)
    · omega
  · exact Nat.zero_le _
  · have h1 : units 1 = 1 := rfl
    rw [h1] at h ⊢
    omega
  · have h2 : units (k + 2) ≤ 2 * units (k + 1) := units_le_two_mul (Nat.succ_pos k)
    rw [show k + 2 - 1 = k + 1 by omega] at h
    omega

/-! ## products -/

/-- the greatest finite number, in units -/
theorem units_greatest : units (2047 * 2 ^ 52 - 1) = (2 ^ 53 - 1) * 2 ^ 971 * unit := by
  have hrank : 2047 * 2 ^ 52 - 1 = 2045 * 2 ^ 52 + (2 ^ 53 - 1) := by omega
  rw [hrank, units_shift (by omega) (.inr (by omega)), Nat.mul_assoc, unit_eq, unitPlaces_eq, ← pow_add]

theorem ofNat_of_lt {n : Nat} (h : nearestRank (n * unit) 1 < 2047 * 2 ^ 52) :
    ofNat n = .finite false ⟨nearestRank (n * unit) 1, h⟩ := dif_pos h

theorem mul_ofNat (a b : Nat) (ha : nearestRank (a * unit) 1 < 2047 * 2 ^ 52)
    (hb : nearestRank (b * unit) 1 < 2047 * 2 ^ 52) :
    (ofNat a).mul (ofNat b) = ofRank false (nearestRank
      (units (nearestRank (a * unit) 1) * units (nearestRank (b * unit) 1) * unit) (unit * unit)) := by
  rw [ofNat_of_lt ha, ofNat_of_lt hb]
  rfl

theorem unit_pos : 0 < unit := Nat.two_pow_pos _

/-- whole numbers up to `2 ^ 1023` are finite -/
theorem nearestRank_lt {a : Nat} (h : a ≤ 2 ^ 52 * 2 ^ 971) :
    nearestRank (a * unit) 1 < 2047 * 2 ^ 52 := by
  have hle : nearestRank (a * unit) 1 ≤ 2047 * 2 ^ 52 - 1 := by
    refine nearestRank_le_of_le Nat.one_pos (by omega) ?_
    rw [units_greatest, Nat.mul_one]
    exact Nat.mul_le_mul_right _ (h.trans (Nat.mul_le_mul_right _ (by omega)))
  omega

/-- **A product of at most `2 ^ 1023` is finite**, though both factors are rounded first. -/
theorem isFinite_mul_of_le {a b : Nat} (ha : 0 < a) (hb : 0 < b) (h : a * b ≤ 2 ^ 52 * 2 ^ 971) :
    ((ofNat a).mul (ofNat b)).isFinite = true := by
  have ha' : a ≤ 2 ^ 52 * 2 ^ 971 := (Nat.le_mul_of_pos_right a hb).trans h
  have hb' : b ≤ 2 ^ 52 * 2 ^ 971 := (Nat.le_mul_of_pos_left b ha).trans h
  rw [mul_ofNat a b (nearestRank_lt ha') (nearestRank_lt hb'), isFinite_ofRank]
  have hle := Nat.mul_le_mul (units_nearestRank_le (a * unit)) (units_nearestRank_le (b * unit))
  generalize units (nearestRank (a * unit) 1) = m at hle
  generalize units (nearestRank (b * unit) 1) = n at hle
  have hmn : m * n ≤ (2 ^ 53 - 1) * 2 ^ 971 * unit * unit := by
    generalize 2 ^ 971 = p at h
    have h9 : 9 * (m * n) ≤ 16 * (2 ^ 52 * p * unit * unit) := by
      calc 9 * (m * n) = 3 * m * (3 * n) := by ring
        _ ≤ 4 * (a * unit) * (4 * (b * unit)) := hle
        _ = 16 * (a * b * unit * unit) := by ring
        _ ≤ 16 * (2 ^ 52 * p * unit * unit) := by gcongr
    have e1 : 2 ^ 52 * p * unit * unit = 2 ^ 52 * (p * unit * unit) := by ring
    have e2 : (2 ^ 53 - 1) * p * unit * unit = (2 ^ 53 - 1) * (p * unit * unit) := by ring
    rw [e1] at h9
    rw [e2]
    omega
  have hrank : nearestRank (m * n * unit) (unit * unit) ≤ 2047 * 2 ^ 52 - 1 := by
    refine nearestRank_le_of_le (Nat.mul_pos unit_pos unit_pos) (by omega) ?_
    rw [units_greatest, ← Nat.mul_assoc]
    exact Nat.mul_le_mul_right _ hmn
  omega

theorem lt_of_isFinite_mul {a b : Nat} (h : ((ofNat a).mul (ofNat b)).isFinite = true) :
    nearestRank (a * unit) 1 < 2047 * 2 ^ 52 ∧ nearestRank (b * unit) 1 < 2047 * 2 ^ 52 := by
  have hof : ∀ n, ¬ nearestRank (n * unit) 1 < 2047 * 2 ^ 52 → ofNat n = .infinite false :=
    fun n hn => dif_neg hn
  constructor
  · by_contra ha
    rw [hof a ha] at h
    cases hb : ofNat b with
    | nan s => rw [hb] at h; cases h
    | infinite s => rw [hb] at h; cases h
    | finite s rank =>
      rw [hb, mul] at h
      split at h
      · cases h
      · cases h
  · by_contra hb
    rw [hof b hb] at h
    cases ha : ofNat a with
    | nan s => rw [ha] at h; cases h
    | infinite s => rw [ha] at h; cases h
    | finite s rank =>
      rw [ha, mul] at h
      split at h
      · cases h
      · cases h

/-- a smaller factor gives a finite product too -/
theorem isFinite_mul_mono {a a' b : Nat} (h : a ≤ a')
    (hf : ((ofNat a').mul (ofNat b)).isFinite = true) :
    ((ofNat a).mul (ofNat b)).isFinite = true := by
  obtain ⟨ha, hb⟩ := lt_of_isFinite_mul hf
  have hrank : nearestRank (a * unit) 1 ≤ nearestRank (a' * unit) 1 :=
    nearestRank_le Nat.one_pos Nat.one_pos (Nat.mul_le_mul_right _ (Nat.mul_le_mul_right _ h))
  rw [mul_ofNat a' b ha hb, isFinite_ofRank] at hf
  rw [mul_ofNat a b (lt_of_le_of_lt hrank ha) hb, isFinite_ofRank]
  refine lt_of_le_of_lt (nearestRank_le (Nat.mul_pos unit_pos unit_pos)
    (Nat.mul_pos unit_pos unit_pos) ?_) hf
  have hunits := units_le_units hrank
  gcongr

/-! ## the greatest exponent -/

namespace Interval

variable {i : Interval} {tie : Tie}

/-- a grid has a point if one of the neighbours of the middle lies in the interval -/
theorem isSome_onGrid?_of_or {num den : Nat}
    (h : i.contains (i.middle * den / num * num) den = true ∨
      i.contains ((i.middle * den / num + 1) * num) den = true) :
    (i.onGrid? tie num den).isSome = true := by
  unfold onGrid?
  generalize i.middle * den / num = below at h ⊢
  dsimp only
  cases hb : i.contains (below * num) den with
  | true =>
    cases i.contains ((below + 1) * num) den with
    | false => rfl
    | true =>
      dsimp only
      split
      · rfl
      split
      · rfl
      cases tie with
      | toEven => rfl
      | up => rfl
  | false =>
    rw [hb, or_iff_right Bool.false_ne_true] at h
    rw [h]
    rfl

/-- a grid whose step is less than the interval has a point in it -/
theorem isSome_onGrid? {num den : Nat} (hnum : 0 < num) (hl : i.low * den < i.middle * den)
    (hh : i.middle * den < i.high * den) (hw : i.low * den + num < i.high * den) :
    (i.onGrid? tie num den).isSome = true := by
  have hbelow : i.middle * den / num * num ≤ i.middle * den := Nat.div_mul_le_self _ _
  have habove : i.middle * den < (i.middle * den / num + 1) * num :=
    (Nat.div_lt_iff_lt_mul hnum).mp (Nat.lt_succ_self _)
  refine isSome_onGrid?_of_or ?_
  generalize i.middle * den / num = below at hbelow habove ⊢
  rw [Nat.succ_mul] at habove ⊢
  rw [contains_iff, contains_iff]
  by_cases hlow : i.low * den < below * num
  · exact .inl ⟨by omega, by omega, fun _ => ⟨by omega, by omega⟩⟩
  · exact .inr ⟨by omega, by omega, fun _ => ⟨by omega, by omega⟩⟩

/-- the search stops at a grid that has a point, or before -/
theorem exists_search {power least : Int} {fuel : Nat} (hp : least ≤ power)
    (hfuel : power - least < fuel)
    (hgrid : (i.onGrid? tie (step least).1 (step least).2).isSome = true) :
    ∃ digits found, i.search tie power fuel = some (digits, found) ∧ least ≤ found := by
  induction fuel generalizing power with
  | zero => omega
  | succ fuel ih =>
    rw [search]
    cases hg : i.onGrid? tie (step power).1 (step power).2 with
    | some digits => exact ⟨digits, power, rfl, hp⟩
    | none =>
      have hne : power ≠ least := by
        rintro rfl
        rw [hg] at hgrid
        cases hgrid
      exact ih (by omega) (by omega)

end Interval

/-- the digits of the greatest rank -/
theorem shortest_greatest : shortest .toEven (2047 * 2 ^ 52 - 1) = (17976931348623157, 292) := by
  decide +kernel

/-- the interval of such a rank is three halves of a gap wide at least, which is more than the step of
the grid of `10 ^ 292` -/
theorem interval_top {rank : Nat} (h : 2046 * 2 ^ 52 ≤ rank) :
    (interval rank).low + 4 * unit * 10 ^ 292 < (interval rank).high := by
  have hgap : units rank + 2 ^ 2045 ≤ units (rank + 1) := units_add_le (by omega)
  have hgap' : units (rank - 1) + 2 ^ 2044 ≤ units (rank - 1 + 1) := units_add_le (by omega)
  rw [Nat.sub_add_cancel (by omega)] at hgap'
  have h1 : (2 : Nat) ^ 2044 = unit * 2 ^ 970 := by
    rw [unit_eq, unitPlaces_eq, ← pow_add]
  have h2 : (2 : Nat) ^ 2045 = 2 * (unit * 2 ^ 970) := by
    rw [unit_eq, unitPlaces_eq, ← pow_add, ← pow_succ']
  have hstep : 2 * 10 ^ 292 < 3 * 2 ^ 970 := by decide +kernel
  have hstep' : unit * (2 * 10 ^ 292) < unit * (3 * 2 ^ 970) :=
    Nat.mul_lt_mul_of_pos_left hstep unit_pos
  rw [h2] at hgap
  rw [h1] at hgap'
  show 2 * (units (rank - 1) + units rank) + 4 * unit * 10 ^ 292
    < 2 * (units rank + units (rank + 1))
  generalize (10 : Nat) ^ 292 = t at hstep' ⊢
  generalize (2 : Nat) ^ 970 = p at hstep' hgap hgap'
  have e1 : unit * (2 * t) = 2 * (unit * t) := by ring
  have e2 : unit * (3 * p) = 3 * (unit * p) := by ring
  have e3 : 4 * unit * t = 4 * (unit * t) := by ring
  omega

theorem startPower_top {rank : Nat} (h : 2046 * 2 ^ 52 ≤ rank) : 292 ≤ startPower rank := by
  have hfirst : units (2045 * 2 ^ 52 + 2 ^ 52) = 2 ^ 52 * 2 ^ 2045 :=
    units_shift (by omega) (.inr le_rfl)
  rw [← pow_add] at hfirst
  have hunits : 2 ^ (52 + 2045) ≤ units rank := by
    rw [← hfirst]
    exact units_le_units (by omega)
  have hlog : ∀ k, 2 ^ k ≤ units rank → k ≤ (units rank).log2 := fun k hk =>
    (Nat.le_log2 (units_pos (by omega)).ne').mpr hk
  have hlog' := hlog (52 + 2045) hunits
  unfold startPower
  omega

theorem le_shortest_power_top {rank : Nat} (h : 2046 * 2 ^ 52 ≤ rank) :
    292 ≤ (shortest .toEven rank).2 := by
  have hgrid : ((interval rank).onGrid? .toEven (Interval.step 292).1 (Interval.step 292).2).isSome
      = true := by
    rw [Interval.step_of_nonneg (by decide), show (292 : Int).toNat = 292 from rfl]
    have hpos : 0 < 4 * unit * 10 ^ 292 :=
      Nat.mul_pos (Nat.mul_pos (by omega) unit_pos) (pow_pos (by omega) 292)
    refine Interval.isSome_onGrid? hpos
      (Nat.mul_lt_mul_of_pos_right (low_lt_middle (by omega)) Nat.one_pos)
      (Nat.mul_lt_mul_of_pos_right (middle_lt_high rank) Nat.one_pos) ?_
    rw [Nat.mul_one, Nat.mul_one]
    exact interval_top h
  have hstart := startPower_top h
  have hfuel : startPower rank - 292 < ((startPower rank + 1076).toNat : Int) := by omega
  obtain ⟨digits, found, hsearch, hfound⟩ := Interval.exists_search hstart hfuel hgrid
  rw [shortest, hsearch]
  exact hfound

/-- multiplied out, the digits of a rank lie in its interval -/
theorem shortest_between {rank digits k : Nat} (hr : 0 < rank)
    (h : shortest .toEven rank = (digits, (k : Int))) :
    (interval rank).low ≤ digits * (4 * unit * 10 ^ k) ∧
      digits * (4 * unit * 10 ^ k) ≤ (interval rank).high := by
  have hcontains := shortest_contains .toEven hr
  rw [h, Interval.step_of_nonneg (Int.natCast_nonneg k), Int.toNat_natCast] at hcontains
  obtain ⟨hl, hh, -⟩ := (Interval.contains_iff _ _ _).mp hcontains
  rw [Nat.mul_one] at hl hh
  exact ⟨hl, hh⟩

/-- **The digits of a rank with the greatest exponent** are those of the greatest rank, or less. -/
theorem shortest_top {rank : Nat} (h : 2046 * 2 ^ 52 ≤ rank) (h' : rank < 2047 * 2 ^ 52) :
    ∃ digits k : Nat, shortest .toEven rank = (digits, ((292 + k : Nat) : Int)) ∧
      digits * 10 ^ k ≤ 17976931348623157 := by
  rcases Nat.lt_or_eq_of_le (Nat.le_pred_of_lt h') with hlt | heq
  · have hpower := le_shortest_power_top h
    obtain ⟨k, hk⟩ : ∃ k : Nat, (shortest .toEven rank).2 = ((292 + k : Nat) : Int) :=
      ⟨((shortest .toEven rank).2 - 292).toNat, by omega⟩
    have hdigits : shortest .toEven rank = ((shortest .toEven rank).1, ((292 + k : Nat) : Int)) :=
      Prod.ext rfl hk
    refine ⟨_, k, hdigits, ?_⟩
    have hhigh := (shortest_between (by omega) hdigits).2
    have hlow := (shortest_between (by omega) (show _ = (_, ((292 : Nat) : Int)) from
      shortest_greatest)).1
    have hle := (hhigh.trans (high_le_low hlt)).trans hlow
    have hpos : 0 < 4 * unit * 10 ^ 292 :=
      Nat.mul_pos (Nat.mul_pos (by omega) unit_pos) (pow_pos (by omega) 292)
    generalize (shortest .toEven rank).1 = digits at hle ⊢
    rw [pow_add] at hle
    generalize (10 : Nat) ^ 292 = t at hle hpos
    have e : digits * (4 * unit * (t * 10 ^ k)) = digits * 10 ^ k * (4 * unit * t) := by ring
    rw [e] at hle
    exact Nat.le_of_mul_le_mul_right hle hpos
  · have e : rank = 2047 * 2 ^ 52 - 1 := heq
    rw [e, shortest_greatest]
    exact ⟨17976931348623157, 0, rfl, by decide⟩

/-- seventeen products of the greatest digits are finite -/
theorem isFinite_greatest : ∀ k < 17,
    ((ofNat (17976931348623157 / 10 ^ k)).mul (ofNat (10 ^ (292 + k)))).isFinite = true := by
  decide +kernel

/-- **The digits of a rank with the greatest exponent give a finite product again**, and so does a
part of them. -/
theorem isFinite_top {digits k : Nat} (hd : 0 < digits) (h : digits * 10 ^ k ≤ 17976931348623157) :
    k < 17 ∧ ((ofNat digits).mul (ofNat (10 ^ (292 + k)))).isFinite = true := by
  have hk : k < 17 := by
    by_contra hk
    have h17 : 10 ^ 17 ≤ 10 ^ k := Nat.pow_le_pow_right (by omega) (by omega)
    have := Nat.le_mul_of_pos_left (10 ^ k) hd
    omega
  have hle : digits ≤ 17976931348623157 / 10 ^ k :=
    (Nat.le_div_iff_mul_le (Nat.pow_pos (by omega))).mpr h
  exact ⟨hk, isFinite_mul_mono hle (isFinite_greatest k hk)⟩

end DeskClock.Binary64
