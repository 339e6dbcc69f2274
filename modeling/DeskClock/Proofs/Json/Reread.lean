import DeskClock.Proofs.Binary64.Near
import DeskClock.Proofs.Json.Number
import DeskClock.Proofs.Json.Value

/-!
# floats that are written and read again

* `reread?`                    the float that is read from the text of a float;
* `scale?_finite`              scaling keeps a finite number finite, and its sign;
* `value?_finite`              so the value of a numeral is finite;
* `IsShortText`                a text with few digits and few places, whose value is a single quotient;
* `reread?_of_isShortDecimal`  a short decimal is read again as the same float;
* `reread?_of_isModerate`      and a moderate number as the same or a neighbour;
* `rereads_of_eq`              what is read of a finite number.

The digits of a float may need more than 53 bits. Then the significand is rounded before it is scaled,
which may lead to a neighbour.
-/

namespace DeskClock.Json

open Binary64

/-- the float that is read from the text of a float -/
def reread? (x : Binary64) : Option Binary64 :=
  (read? (Utf8.encode (writeNumber x))).bind Value.number?

theorem reread?_eq {x : Binary64} {n : Numeral} (hn : n.Valid)
    (h : writeNumber x = (if n.negative then ['-'] else []) ++ n.body) : reread? x = n.value? := by
  rw [reread?, h, read?_of_writes (writes_number hn)]
  rfl

/-! ## scaling -/

theorem scale?_of_neg (more : Nat) (x : Binary64) {places : Nat} (hpos : 0 < places)
    (hmax : places ≤ maxPower) :
    scale? more x (-(places : Int)) = some (x.div (ofNat (10 ^ places))) := by
  rw [scale?.eq_def]
  dsimp only
  rw [Int.natAbs_neg, Int.natAbs_natCast, if_pos hmax, if_neg (by omega)]
  rfl

/-- the powers that are multiplied or divided by at once are finite, and one at least -/
theorem powerOfTen_eq {power : Nat} (h : power ≤ maxPower) :
    ∃ rank : Fin (2047 * Nat.pow 2 52), powerOfTen power = .finite false rank ∧ unit ≤ units rank := by
  have hgreat : 10 ^ maxPower ≤ (2 ^ 53 - 1) * 2 ^ 971 := by decide +kernel
  have hten : 10 ^ power ≤ (2 ^ 53 - 1) * 2 ^ 971 :=
    (Nat.pow_le_pow_right (by omega) h).trans hgreat
  have hle : nearestRank (10 ^ power * unit) 1 ≤ 2047 * 2 ^ 52 - 1 := by
    refine nearestRank_le_of_le Nat.one_pos (by omega) ?_
    rw [units_greatest, Nat.mul_one]
    exact Nat.mul_le_mul_right _ hten
  have hlt : nearestRank (10 ^ power * unit) 1 < 2047 * Nat.pow 2 52 :=
    Nat.lt_of_le_pred (by decide) hle
  exact ⟨⟨_, hlt⟩, dif_pos hlt, unit_le_units (Nat.pow_pos (by omega))⟩

theorem div_powerOfTen (rank : Fin (2047 * Nat.pow 2 52)) {power : Nat} (h : power ≤ maxPower) :
    ∃ found, (Binary64.finite false rank).div (powerOfTen power) = .finite false found := by
  obtain ⟨q, hq, hone⟩ := powerOfTen_eq h
  have hpos : 0 < units q := unit_pos.trans_le hone
  have hq0 : q.val ≠ 0 := (pos_of_units_pos hpos).ne'
  have hle : nearestRank (units rank * unit) (units q) ≤ 2047 * 2 ^ 52 - 1 := by
    refine nearestRank_le_of_le hpos (by omega) ?_
    exact Nat.mul_le_mul (units_le_units (Nat.le_pred_of_lt rank.isLt)) hone
  have hlt : nearestRank (units rank * unit) (units q) < 2047 * Nat.pow 2 52 :=
    Nat.lt_of_le_pred (by decide) hle
  rw [hq, Binary64.div, if_neg hq0]
  exact ⟨⟨_, hlt⟩, dif_pos hlt⟩

theorem mul_powerOfTen (rank : Fin (2047 * Nat.pow 2 52)) {power : Nat} (h : power ≤ maxPower)
    (hf : ((Binary64.finite false rank).mul (powerOfTen power)).isFinite = true) :
    ∃ found, (Binary64.finite false rank).mul (powerOfTen power) = .finite false found := by
  obtain ⟨q, hq, -⟩ := powerOfTen_eq h
  rw [hq, mul] at hf ⊢
  exact ⟨⟨_, (isFinite_ofRank _ _).mp hf⟩, dif_pos ((isFinite_ofRank _ _).mp hf)⟩

/-- **Scaling keeps a finite number finite**, and its sign. -/
theorem scale?_finite {more : Nat} {x y : Binary64} {exponent : Int}
    (hx : ∃ rank, x = .finite false rank) (h : scale? more x exponent = some y) :
    ∃ found, y = .finite false found := by
  fun_induction scale? more x exponent with
  | case1 more x exponent hmax hsign product hfinite =>
    obtain ⟨rank, rfl⟩ := hx
    rw [← Option.some.inj h]
    exact mul_powerOfTen rank hmax hfinite
  | case2 => cases h
  | case3 more x exponent hmax hsign =>
    obtain ⟨rank, rfl⟩ := hx
    rw [← Option.some.inj h]
    exact div_powerOfTen rank hmax
  | case4 => exact Option.some.inj h ▸ hx
  | case5 => cases h
  | case6 => cases h
  | case7 x exponent hmax hzero hsign more ih =>
    obtain ⟨rank, rfl⟩ := hx
    exact ih (div_powerOfTen rank le_rfl) h

/-! ## the value of a numeral -/

variable {n : Numeral} {significand places : Nat} {rank : Fin (2047 * Nat.pow 2 52)}

theorem neg_finite (negative : Bool) : (if negative then (Binary64.finite false rank).neg
    else .finite false rank) = .finite negative rank := by
  cases negative with
  | false => rfl
  | true => rfl

/-- **The value of a numeral is finite**, and has its sign. -/
theorem value?_finite {y : Binary64} (h : n.value? = some y) :
    ∃ found, y = .finite n.negative found := by
  obtain ⟨scaled, hscale, rfl⟩ := Option.map_eq_some_iff.mp h
  have hlt : nearestRank (n.parts.1 * unit) 1 < 2047 * 2 ^ 52 :=
    nearestRank_lt ((parts_le n).trans (by decide +kernel))
  obtain ⟨found, rfl⟩ := scale?_finite ⟨_, ofNat_of_lt hlt⟩ hscale
  exact ⟨found, neg_finite n.negative⟩

/-! ## numerals of few digits -/

/-- eighteen digits fit -/
theorem fits {digits : Nat} (h : digits ≤ 2 * 10 ^ 17) : digits ≤ maxSignificand := by
  unfold maxSignificand
  omega

/-- digits without an exponent, some of them behind the point -/
theorem exists_numeral_point (negative : Bool) {digits : Nat} (hfits : digits ≤ maxSignificand)
    (hpos : 0 < places) :
    ∃ n : Numeral, n.Valid ∧ n.negative = negative ∧ n.body = positional digits (-(places : Int)) ∧
      n.parts = (digits, -(places : Int)) := by
  have hneg : ¬ 0 ≤ -(places : Int) := by omega
  obtain ⟨fraction, htext, hlength, hd, hvalue⟩ := positional_of_neg digits hneg
  rw [neg_neg, Int.toNat_natCast] at htext hlength hvalue
  have hne : fraction ≠ [] := by
    rintro rfl
    exact hpos.ne hlength
  have hwhole : digits / 10 ^ places ≤ maxSignificand := (Nat.div_le_self _ _).trans hfits
  have hall : Digits.valueFrom (digits / 10 ^ places) fraction = digits := by
    rw [Digits.value_append, Digits.value_ofNat] at hvalue
    rw [Digits.valueFrom_eq]
    exact hvalue
  obtain ⟨n, hvalid, hnegative, hbody, hparts⟩ := exists_numeral_positional negative hwhole hne hd
  rw [gatherFraction_eq (by rw [hall]; exact hfits), hall, hlength] at hparts
  exact ⟨n, hvalid, hnegative, by rw [hbody, htext], hparts⟩

/-- digits with an exponent -/
theorem exists_numeral_exponent (negative : Bool) {digits : Nat} (hfits : digits ≤ maxSignificand)
    (power : Int) :
    ∃ n : Numeral, n.Valid ∧ n.negative = negative ∧
      n.body = scientific (Digits.ofNat digits) (power + (Digits.ofNat digits).length - 1) ∧
      n.parts = (digits, power) := by
  cases htext : Digits.ofNat digits with
  | nil => exact absurd htext (Digits.ofNat_ne_nil digits)
  | cons c cs =>
    have hd : ∀ d ∈ c :: cs, d.isDigit = true := htext ▸ Digits.isDigit_of_mem_ofNat digits
    have hall := valueFrom_first htext
    obtain ⟨n, hvalid, hnegative, hbody, hparts⟩ := exists_numeral_scientific negative hd
      (power + ((c :: cs).length : Int) - 1)
    rw [gatherFraction_eq (by rw [hall]; exact hfits), hall] at hparts
    refine ⟨n, hvalid, hnegative, hbody, hparts.trans (Prod.ext rfl ?_)⟩
    show power + ((cs.length + 1 : Nat) : Int) - 1 - (cs.length : Int) = power
    omega

/-- a whole number, which is written with a zero behind the point -/
theorem exists_numeral_whole (negative : Bool) {digits power : Nat} (hd : 0 < digits)
    (hlt : digits * 10 ^ power < 10 ^ 16) :
    ∃ n : Numeral, n.Valid ∧ n.negative = negative ∧ n.body = positional digits (power : Int) ∧
      n.parts = (10 * (digits * 10 ^ power), -((1 : Nat) : Int)) := by
  have htext := positional_of_nonneg hd (Int.natCast_nonneg power)
  rw [Int.toNat_natCast] at htext
  obtain ⟨n, hvalid, hnegative, hbody, hparts⟩ := exists_numeral_positional negative
    (fits (by omega) : digits * 10 ^ power ≤ maxSignificand) (List.cons_ne_nil '0' [])
    Digits.isDigit_of_mem_zero
  have hall : Digits.valueFrom (digits * 10 ^ power) ['0'] = 10 * (digits * 10 ^ power) := rfl
  rw [gatherFraction_eq (by rw [hall]; exact fits (by omega)), hall] at hparts
  exact ⟨n, hvalid, hnegative, by rw [hbody, htext], hparts⟩

/-- a whole number below `10 ^ 16` is short enough to be written without an exponent -/
theorem length_add_le {digits power : Nat} (hd : 0 < digits) (hlt : digits * 10 ^ power < 10 ^ 16) :
    (Digits.ofNat digits).length + power ≤ 16 := by
  have hpower : power < 16 := by
    by_contra h
    have hpow : 10 ^ 16 ≤ 10 ^ power := Nat.pow_le_pow_right (by omega) (by omega)
    have := Nat.le_mul_of_pos_left (10 ^ power) hd
    omega
  have hdigits : digits < 10 ^ (16 - power) := by
    refine Nat.lt_of_mul_lt_mul_right (a := 10 ^ power) ?_
    rw [← pow_add, Nat.sub_add_cancel hpower.le]
    exact hlt
  have hlength := Digits.length_ofNat_le (by omega) hdigits
  omega

/-- A numeral that is the text of a rank, with a significand that fits and few places. -/
structure IsShortText (n : Numeral) (rank significand places : Nat) : Prop where
  valid : n.Valid
  body : n.body = writeRank rank
  parts : n.parts = (significand, -(places : Int))
  pos : 0 < significand
  fits : significand ≤ maxSignificand
  places_pos : 0 < places
  places_le : places ≤ 22
  contains : (interval rank).contains (significand * (4 * unit)) (10 ^ places) = true

/-- no digit is behind the point -/
theorem exists_shortText_whole (negative : Bool) {digits power rank : Nat} (hr : 0 < rank)
    (hshort : shortest .toEven rank = (digits, (power : Int)))
    (hlt : digits * 10 ^ power < 10 ^ 16) :
    ∃ n : Numeral, n.negative = negative ∧ IsShortText n rank (10 * (digits * 10 ^ power)) 1 := by
  have hd := shortest_pos .toEven hr
  have hcontains := shortest_contains .toEven hr
  rw [hshort] at hd hcontains
  dsimp only at hd hcontains
  have hlength := length_add_le hd hlt
  obtain ⟨n, hvalid, hnegative, hbody, hparts⟩ := exists_numeral_whole negative hd hlt
  refine ⟨n, hnegative, hvalid, ?_, hparts, by positivity, fits (by omega), Nat.one_pos, by omega, ?_⟩
  · rw [writeRank, hshort]
    dsimp only
    rw [if_pos (by omega), hbody]
  · have hzero : (power : Int) = (power : Int) - ((0 : Nat) : Int) := by omega
    have hten := Interval.contains_mul 10 (by omega) (Interval.contains_finer hzero hcontains)
    have e : digits * 10 ^ power * (4 * unit) * 10 = 10 * (digits * 10 ^ power) * (4 * unit) := by
      ring
    rw [e] at hten
    exact hten

/-- some digits are behind the point, with an exponent or without -/
theorem exists_shortText_point (negative : Bool) {digits rank : Nat} (hr : 0 < rank)
    (hshort : shortest .toEven rank = (digits, -(places : Int))) (hfits : digits ≤ maxSignificand)
    (hpos : 0 < places) (hp : places ≤ 22) :
    ∃ n : Numeral, n.negative = negative ∧ IsShortText n rank digits places := by
  have hd := shortest_pos .toEven hr
  have hcontains := shortest_contains .toEven hr
  rw [hshort] at hd hcontains
  rw [Interval.step_neg_natCast] at hcontains
  suffices h : ∃ n : Numeral, n.Valid ∧ n.negative = negative ∧ n.body = writeRank rank ∧
      n.parts = (digits, -(places : Int)) by
    obtain ⟨n, hvalid, hnegative, hbody, hparts⟩ := h
    exact ⟨n, hnegative, hvalid, hbody, hparts, hd, hfits, hpos, hp, hcontains⟩
  unfold writeRank
  rw [hshort]
  dsimp only
  split
  · exact exists_numeral_point negative hfits hpos
  · exact exists_numeral_exponent negative hfits _

/-- **The text of a rank with few digits**, and few of them behind the point, leaves none of them out; its
significand is a float if there are no more than fifteen. -/
theorem exists_shortText (negative : Bool) {digits zeros places rank : Nat} (hr : 0 < rank)
    (hshort : shortest .toEven rank = (digits, (zeros : Int) - places)) (hp : places ≤ 22)
    (hle : digits * 10 ^ zeros ≤ 2 * 10 ^ 17)
    (hwhole : places ≤ zeros → digits * 10 ^ (zeros - places) < 10 ^ 16) :
    ∃ (n : Numeral) (significand places : Nat), n.negative = negative ∧
      IsShortText n rank significand places ∧
      (digits * 10 ^ zeros ≤ 10 ^ 15 → IsExact significand) := by
  by_cases hpoint : places ≤ zeros
  · obtain ⟨power, rfl⟩ := Nat.le.dest hpoint
    have hlt := hwhole hpoint
    rw [Nat.add_sub_cancel_left] at hlt
    have hwhole' : shortest .toEven rank = (digits, (power : Int)) :=
      hshort.trans (Prod.ext rfl (by omega))
    obtain ⟨n, hnegative, htext⟩ := exists_shortText_whole negative hr hwhole' hlt
    refine ⟨n, _, 1, hnegative, htext, fun hfew => ?_⟩
    have hfewer : digits * 10 ^ power ≤ 10 ^ 15 :=
      (Nat.mul_le_mul_left _ (Nat.pow_le_pow_right (by omega) (by omega))).trans hfew
    exact isExact_of_eq (m := 5 * (digits * 10 ^ power)) (s := 1) (by ring) htext.pos (by omega) (by omega)
  · have hdigits : digits ≤ digits * 10 ^ zeros :=
      Nat.le_mul_of_pos_right digits (Nat.pow_pos (by omega))
    have hpoint' : shortest .toEven rank = (digits, -((places - zeros : Nat) : Int)) :=
      hshort.trans (Prod.ext rfl (by omega))
    obtain ⟨n, hnegative, htext⟩ := exists_shortText_point negative hr hpoint' (fits (hdigits.trans hle))
      (by omega) (by omega)
    exact ⟨n, digits, _, hnegative, htext, fun hfew =>
      isExact_of_le htext.pos ((hdigits.trans hfew).trans (by decide))⟩

namespace IsShortText

variable (h : IsShortText n rank significand places)

include h

theorem value?_eq : n.value? = some (if n.negative then
    ((ofNat significand).div (ofNat (10 ^ places))).neg
    else (ofNat significand).div (ofNat (10 ^ places))) := by
  rw [Numeral.value?, h.parts]
  dsimp only
  rw [scale?_of_neg 3 _ h.places_pos (h.places_le.trans (by decide)), Option.map_some]

theorem reread?_eq (hr : 0 < rank.val) : reread? (.finite n.negative rank) = n.value? := by
  refine Json.reread?_eq h.valid ?_
  rw [writeNumber, if_neg hr.ne', h.body]

end IsShortText

/-! ## numbers that are written and read -/

theorem reread?_zero (negative : Bool) : reread? (zero negative) = some (zero negative) := by
  cases negative with
  | false => decide +kernel
  | true => decide +kernel

/-- **A short decimal is read again as the same float.** -/
theorem reread?_of_isShortDecimal {x : Binary64} (h : IsShortDecimal x) : reread? x = some x := by
  rcases h.cases with ⟨negative, rfl⟩ | ⟨negative, rank, digits, places, rfl, hr, hd, hle, hp, hc⟩
  · exact reread?_zero negative
  · obtain ⟨digits, zeros, hshort, rfl⟩ := shortest_of_decimal hr hd (by omega) hp hc
    have hwhole : digits * 10 ^ (zeros - places) ≤ digits * 10 ^ zeros :=
      Nat.mul_le_mul_left _ (Nat.pow_le_pow_right (by omega) (Nat.sub_le _ _))
    obtain ⟨n, significand, places, rfl, htext, hexact⟩ :=
      exists_shortText negative hr hshort hp (by omega) (fun _ => by omega)
    rw [htext.reread?_eq hr, htext.value?_eq, (hexact hle).div (isExact_pow_ten htext.places_le)
      (Nat.pow_pos (by omega)) htext.contains, neg_finite]

/-- **A moderate number is read again as the same float or a neighbour.** -/
theorem reread?_of_isModerate {x : Binary64} (h : IsModerate x) :
    ∃ y, reread? x = some y ∧ IsNear x y := by
  cases x with
  | nan negative => cases h
  | infinite negative => cases h
  | finite negative rank =>
    obtain ⟨hleast, hmost⟩ := h
    have hnormal := normal_of_moderate hleast
    obtain ⟨digits, zeros, places, hshort, hp, hle, hwhole⟩ := shortest_of_moderate hleast hmost
    obtain ⟨n, significand, places, rfl, htext, -⟩ :=
      exists_shortText negative (by omega) hshort hp hle hwhole
    obtain ⟨found, hdiv, hup, hdown⟩ := ofNat_div_near htext.pos (htext.fits.trans (by decide +kernel))
      (isExact_pow_ten htext.places_le) (Nat.pow_pos (by omega)) (by omega) htext.contains
    have hfound : found < 2047 * Nat.pow 2 52 := hup.trans_lt (lt_of_moderate hmost)
    rw [htext.reread?_eq (by omega), htext.value?_eq, hdiv, ofRank, dif_pos hfound, neg_finite]
    exact ⟨_, rfl, n.negative, rank, ⟨found, hfound⟩, rfl, rfl, hup, hdown⟩

/-- **A finite number is read again with its sign**, and is not infinite then. -/
theorem reread?_finite (negative : Bool) (rank : Fin (2047 * Nat.pow 2 52)) :
    ∃ found, reread? (.finite negative rank) = some (.finite negative found) := by
  obtain ⟨n, hvalid, rfl, hvalue, htext⟩ := exists_numeral negative rank
  obtain ⟨y, hy⟩ := Option.isSome_iff_exists.mp hvalue
  obtain ⟨found, rfl⟩ := value?_finite hy
  exact ⟨found, (reread?_eq hvalid htext).trans hy⟩

/-- What a float that is read has in common with the one that was written. -/
structure Rereads (x y : Binary64) : Prop where
  sign : ∃ negative rank found, x = .finite negative rank ∧ y = .finite negative found
  short : IsShortDecimal x → y = x
  moderate : IsModerate x → IsNear x y

/-- **What is read of a finite number.** -/
theorem rereads_of_eq {x y : Binary64} (hx : x.isFinite = true) (h : reread? x = some y) :
    Rereads x y := by
  refine ⟨?_, fun hshort => ?_, fun hmoderate => ?_⟩
  · cases x with
    | nan negative => cases hx
    | infinite negative => cases hx
    | finite negative rank =>
      obtain ⟨found, hfound⟩ := reread?_finite negative rank
      exact ⟨negative, rank, found, rfl, Option.some.inj (h.symm.trans hfound)⟩
  · exact Option.some.inj (h.symm.trans (reread?_of_isShortDecimal hshort))
  · obtain ⟨found, hfound, hnear⟩ := reread?_of_isModerate hmoderate
    rw [Option.some.inj (h.symm.trans hfound)]
    exact hnear

end DeskClock.Json
