import DeskClock.Proofs.Binary64.Range
import DeskClock.Proofs.Json.Token

/-!
# written numbers are readable

* `gatherFraction_spec`   a significand is at most the number that all the digits stand for;
* `isSome_scale?_of_neg`, `isSome_scale?_of_finite`   scaling is refused only for great powers;
* `isFinite_scaled`       the digits of a rank, or as many as fit, are scaled to a finite number;
* `exists_numeral`        a finite number is written as a numeral that has a value.
-/

namespace DeskClock.Json

open Binary64

/-! ## gathering digits -/

theorem le_valueFrom (start : Nat) (cs : List Char) : start ≤ Digits.valueFrom start cs := by
  rw [Digits.valueFrom_eq]
  exact (Nat.le_mul_of_pos_right start (Nat.pow_pos (by omega))).trans (Nat.le_add_right _ _)

theorem gatherWhole_eq {start : Nat} {cs : List Char}
    (h : Digits.valueFrom start cs ≤ maxSignificand) :
    gatherWhole start cs = (Digits.valueFrom start cs, 0) := by
  induction cs generalizing start with
  | nil => rfl
  | cons c cs ih =>
    rw [Digits.valueFrom_cons] at h ⊢
    rw [gatherWhole, if_pos ((le_valueFrom _ cs).trans h), ih h]

theorem gatherWhole_le {start : Nat} (h : start ≤ maxSignificand) (cs : List Char) :
    (gatherWhole start cs).1 ≤ maxSignificand := by
  induction cs generalizing start with
  | nil => exact h
  | cons c cs ih =>
    rw [gatherWhole]
    split
    · next hmore => exact ih hmore
    · exact h

theorem gatherFraction_le {start : Nat} (h : start ≤ maxSignificand) (cs : List Char) :
    (gatherFraction start cs).1 ≤ maxSignificand := by
  induction cs generalizing start with
  | nil => exact h
  | cons c cs ih =>
    rw [gatherFraction]
    dsimp only
    split
    · next hmore => exact ih hmore
    · exact h

/-- **The digits of a fraction that do not fit are left out**, so that the significand with as many
zeros is at most the number that all the digits stand for. -/
theorem gatherFraction_spec (start : Nat) (cs : List Char) :
    (gatherFraction start cs).2 ≤ cs.length ∧ start ≤ (gatherFraction start cs).1 ∧
      (gatherFraction start cs).1 * 10 ^ (cs.length - (gatherFraction start cs).2)
        ≤ Digits.valueFrom start cs := by
  induction cs generalizing start with
  | nil => exact ⟨le_rfl, le_rfl, le_of_eq (Nat.mul_one _)⟩
  | cons c cs ih =>
    rw [gatherFraction]
    dsimp only
    split
    · obtain ⟨h1, h2, h3⟩ := ih (10 * start + Digits.digitValue c)
      refine ⟨Nat.succ_le_succ h1, by show start ≤ _; omega, ?_⟩
      rw [Digits.valueFrom_cons, List.length_cons]
      show _ * 10 ^ (cs.length + 1 - (_ + 1)) ≤ _
      rw [Nat.add_sub_add_right]
      exact h3
    · refine ⟨Nat.zero_le _, le_rfl, ?_⟩
      rw [Digits.valueFrom_eq]
      exact Nat.le_add_right _ _

theorem le_maxSignificand {n : Nat} (h : n < 10 ^ 16) : n ≤ maxSignificand := by
  unfold maxSignificand
  omega

/-- the digits of a fraction that fit are all gathered -/
theorem gatherFraction_eq {start : Nat} {cs : List Char}
    (h : Digits.valueFrom start cs ≤ maxSignificand) :
    gatherFraction start cs = (Digits.valueFrom start cs, cs.length) := by
  induction cs generalizing start with
  | nil => rfl
  | cons c cs ih =>
    rw [Digits.valueFrom_cons] at h ⊢
    rw [gatherFraction]
    dsimp only
    rw [if_pos ((le_valueFrom _ cs).trans h), ih h]
    rfl

/-- the first digit behind a short whole part fits -/
theorem gatherFraction_pos {start : Nat} (h : start < 10 ^ 16) {cs : List Char} (hne : cs ≠ [])
    (hd : ∀ c ∈ cs, c.isDigit = true) : 0 < (gatherFraction start cs).2 := by
  cases cs with
  | nil => exact absurd rfl hne
  | cons c cs =>
    have hc := Digits.digitValue_lt (hd c List.mem_cons_self)
    rw [gatherFraction]
    dsimp only
    rw [if_pos (by unfold maxSignificand; omega)]
    exact Nat.succ_pos _

/-! ## scaling -/

/-- negative powers that are not beyond the count of steps are never refused -/
theorem isSome_scale?_of_neg (more : Nat) (x : Binary64) {exponent : Int} (h : exponent < 0)
    (h' : -(308 * (more + 1)) ≤ exponent) : (scale? more x exponent).isSome = true := by
  induction more generalizing x exponent with
  | zero =>
    have hmax : exponent.natAbs ≤ maxPower := by
      show exponent.natAbs ≤ 308
      omega
    rw [scale?.eq_def]
    dsimp only
    rw [if_pos hmax, if_neg (by omega)]
    rfl
  | succ more ih =>
    rw [scale?.eq_def]
    dsimp only
    by_cases hmax : exponent.natAbs ≤ maxPower
    · rw [if_pos hmax, if_neg (by omega)]
      rfl
    · rw [if_neg hmax]
      split
      · rfl
      · rw [if_neg (by omega)]
        have hbeyond : ¬ exponent.natAbs ≤ 308 := hmax
        show (scale? more _ (exponent + 308)).isSome = true
        exact ih _ (by omega) (by push_cast at h'; omega)

theorem isSome_scale?_of_finite (more : Nat) {significand power : Nat} (h : power ≤ maxPower)
    (hf : ((ofNat significand).mul (ofNat (10 ^ power))).isFinite = true) :
    (scale? more (ofNat significand) (power : Int)).isSome = true := by
  rw [scale?.eq_def]
  dsimp only
  rw [Int.natAbs_natCast, if_pos h, if_pos (Int.natCast_nonneg power), powerOfTen]
  show Option.isSome (if ((ofNat significand).mul (ofNat (10 ^ power))).isFinite then _ else _) = true
  rw [if_pos hf]
  rfl

/-! ## what a rank is scaled to -/

/-- the interval of a rank that is not one of the last `2 ^ 52` ends at `2 ^ 1023` or before -/
theorem high_le {rank : Nat} (h : rank < 2046 * 2 ^ 52) :
    (interval rank).high ≤ 2 ^ 52 * 2 ^ 971 * (4 * unit) := by
  have hlast : units (2045 * 2 ^ 52 + 2 ^ 52) = 2 ^ 52 * 2 ^ 2045 :=
    units_shift (by omega) (.inr le_rfl)
  have hpow : (2 : Nat) ^ 2045 = 2 ^ 971 * unit := by
    rw [unit_eq, unitPlaces_eq, ← pow_add]
  rw [hpow, ← Nat.mul_assoc] at hlast
  have h1 : units rank ≤ units (2045 * 2 ^ 52 + 2 ^ 52) := units_le_units (by omega)
  have h2 : units (rank + 1) ≤ units (2045 * 2 ^ 52 + 2 ^ 52) := units_le_units (by omega)
  rw [hlast] at h1 h2
  show 2 * (units rank + units (rank + 1)) ≤ _
  generalize 2 ^ 52 * 2 ^ 971 = p at h1 h2 ⊢
  have e : p * (4 * unit) = 4 * (p * unit) := by ring
  omega

variable {rank digits significand dropped power : Nat} {exponent : Int}

/-- **A part of the digits of such a rank**, with as many zeros as digits are left out, multiplied out
when the power of ten is not negative. -/
theorem scaled_le (hr : 0 < rank) (h : rank < 2046 * 2 ^ 52)
    (hshort : shortest .toEven rank = (digits, exponent))
    (hs : significand * 10 ^ dropped ≤ digits) (hp : exponent + dropped = power) :
    significand * 10 ^ power ≤ 2 ^ 52 * 2 ^ 971 := by
  have hcontains := shortest_contains .toEven hr
  rw [hshort] at hcontains
  obtain ⟨-, hhigh, -⟩ := (Interval.contains_iff _ _ _).mp hcontains
  have hquarter : 0 < 4 * unit := Nat.mul_pos (by omega) unit_pos
  refine Nat.le_of_mul_le_mul_right ?_ hquarter
  refine le_trans ?_ (high_le h)
  by_cases h0 : 0 ≤ exponent
  · obtain ⟨k, rfl⟩ := Int.eq_ofNat_of_zero_le h0
    have hk : k + dropped = power := by omega
    rw [Interval.step_of_nonneg h0, Int.toNat_natCast, Nat.mul_one] at hhigh
    calc significand * 10 ^ power * (4 * unit)
        = significand * 10 ^ dropped * (4 * unit * 10 ^ k) := by rw [← hk, pow_add]; ring
      _ ≤ digits * (4 * unit * 10 ^ k) := Nat.mul_le_mul_right _ hs
      _ ≤ (interval rank).high := hhigh
  · obtain ⟨k, hk⟩ : ∃ k : Nat, -exponent = k := ⟨(-exponent).toNat, by omega⟩
    have hdropped : power + k = dropped := by omega
    rw [Interval.step_of_neg h0, hk, Int.toNat_natCast] at hhigh
    refine Nat.le_of_mul_le_mul_right ?_ (Nat.pow_pos (by omega) : 0 < 10 ^ k)
    calc significand * 10 ^ power * (4 * unit) * 10 ^ k
        = significand * 10 ^ dropped * (4 * unit) := by rw [← hdropped, pow_add]; ring
      _ ≤ digits * (4 * unit) := Nat.mul_le_mul_right _ hs
      _ ≤ (interval rank).high * 10 ^ k := hhigh

/-- **A part of the digits of a rank is scaled to a finite number.** -/
theorem isFinite_scaled (hr : 0 < rank) (hrank : rank < 2047 * 2 ^ 52)
    (hshort : shortest .toEven rank = (digits, exponent)) (hsig : 0 < significand)
    (hs : significand * 10 ^ dropped ≤ digits) (hp : exponent + dropped = power) :
    power ≤ maxPower ∧ ((ofNat significand).mul (ofNat (10 ^ power))).isFinite = true := by
  by_cases h : rank < 2046 * 2 ^ 52
  · have hle := scaled_le hr h hshort hs hp
    refine ⟨?_, isFinite_mul_of_le hsig (Nat.pow_pos (by omega)) hle⟩
    by_contra hmax
    have hlt : 2 ^ 52 * 2 ^ 971 < 10 ^ (maxPower + 1) := by decide +kernel
    have hpow : 10 ^ (maxPower + 1) ≤ 10 ^ power :=
      Nat.pow_le_pow_right (by omega) (Nat.lt_of_not_le hmax)
    have hone := Nat.le_mul_of_pos_left (10 ^ power) hsig
    exact absurd (hlt.trans_le (hpow.trans hone)) (Nat.not_lt.mpr hle)
  · obtain ⟨_, k, e, hd⟩ := shortest_top (Nat.le_of_not_lt h) hrank
    obtain ⟨rfl, rfl⟩ := Prod.mk.inj (hshort.symm.trans e)
    have hpart : significand * 10 ^ (k + dropped) ≤ 17976931348623157 := by
      calc significand * 10 ^ (k + dropped) = significand * 10 ^ dropped * 10 ^ k := by
            rw [pow_add]; ring
        _ ≤ digits * 10 ^ k := Nat.mul_le_mul_right _ hs
        _ ≤ 17976931348623157 := hd
    obtain ⟨hk, hf⟩ := isFinite_top hsig hpart
    have hpower : power = 292 + (k + dropped) := by omega
    refine ⟨?_, by rw [hpower]; exact hf⟩
    show power ≤ 308
    omega

/-! ## numerals -/

theorem parts_le (n : Numeral) : n.parts.1 ≤ maxSignificand :=
  gatherFraction_le (gatherWhole_le (Nat.zero_le _) n.whole) _

theorem isSome_value? {n : Numeral} {significand : Nat} {exponent : Int}
    (hn : n.parts = (significand, exponent))
    (h : (scale? 3 (ofNat significand) exponent).isSome = true) : n.value?.isSome = true := by
  rw [Numeral.value?, hn]
  dsimp only
  rw [Option.isSome_map]
  exact h

/-- digits with a point among them -/
theorem exists_numeral_positional (negative : Bool) {whole : Nat} (hw : whole ≤ maxSignificand)
    {fraction : List Char} (hne : fraction ≠ []) (hd : ∀ c ∈ fraction, c.isDigit = true) :
    ∃ n : Numeral, n.Valid ∧ n.negative = negative ∧ n.body = Digits.ofNat whole ++ '.' :: fraction ∧
      n.parts = ((gatherFraction whole fraction).1, -((gatherFraction whole fraction).2 : Int)) := by
  refine ⟨⟨negative, Digits.ofNat whole, some fraction, none⟩, ?_, rfl, ?_, ?_⟩
  · refine ⟨⟨Digits.isDigit_of_mem_ofNat whole, Digits.ofNat_ne_nil whole⟩, ?_, ?_, ?_⟩
    · intro c cs e
      cases (Digits.ofNat_eq_zero_cons e).2
    · intro run e
      cases e
      exact ⟨hd, hne⟩
    · intro e he
      cases he
  · show Digits.ofNat whole ++ '.' :: fraction ++ [] = _
    rw [List.append_nil]
  · have hv : Digits.valueFrom 0 (Digits.ofNat whole) = whole := Digits.value_ofNat whole
    rw [Numeral.parts, gatherWhole_eq (by rw [hv]; exact hw), hv]
    refine Prod.ext rfl ?_
    show ((0 : Nat) : Int) - ((gatherFraction whole fraction).2 : Int) + 0 = _
    omega

/-- they are readable when the whole part is short -/
theorem isSome_value?_positional {n : Numeral} {whole : Nat} (hw : whole < 10 ^ 16)
    {fraction : List Char} (hne : fraction ≠ []) (hd : ∀ c ∈ fraction, c.isDigit = true)
    (hl : fraction.length ≤ 1075)
    (hn : n.parts = ((gatherFraction whole fraction).1, -((gatherFraction whole fraction).2 : Int))) :
    n.value?.isSome = true := by
  have hpos := gatherFraction_pos hw hne hd
  have hle := (gatherFraction_spec whole fraction).1
  exact isSome_value? hn (isSome_scale?_of_neg 3 _ (by omega) (by omega))

/-- one digit, a point and the other digits, if there are any, and an exponent -/
theorem exists_numeral_scientific (negative : Bool) {c : Char} {cs : List Char}
    (hd : ∀ d ∈ c :: cs, d.isDigit = true) (exponent : Int) :
    ∃ n : Numeral, n.Valid ∧ n.negative = negative ∧ n.body = scientific (c :: cs) exponent ∧
      n.parts = ((gatherFraction (Digits.digitValue c) cs).1,
        exponent - ((gatherFraction (Digits.digitValue c) cs).2 : Int)) := by
  have hc : c.isDigit = true := hd c List.mem_cons_self
  have hcs : ∀ d ∈ cs, d.isDigit = true := fun d h => hd d (List.mem_cons_of_mem _ h)
  refine ⟨⟨negative, [c], if cs.isEmpty then none else some cs,
    some (decide (exponent < 0), Digits.ofNat exponent.natAbs)⟩, ⟨?_, ?_, ?_, ?_⟩, rfl, ?_, ?_⟩
  · refine ⟨?_, List.cons_ne_nil _ _⟩
    intro d h
    rw [List.mem_singleton.mp h]
    exact hc
  · intro d ds e
    cases e
  · intro run e
    dsimp only at e
    split at e
    · cases e
    · next hne =>
      cases e
      exact ⟨hcs, fun h => hne (List.isEmpty_iff.mpr h)⟩
  · intro e he
    cases he
    exact ⟨Digits.isDigit_of_mem_ofNat _, Digits.ofNat_ne_nil _⟩
  · unfold Numeral.body Numeral.fractionText Numeral.exponentText scientific
    cases cs with
    | nil => simp
    | cons d ds => simp
  · have hgather : gatherWhole 0 [c] = (Digits.digitValue c, 0) := by
      have hlt := Digits.digitValue_lt hc
      have hv : Digits.valueFrom 0 [c] = Digits.digitValue c := by
        rw [Digits.valueFrom_cons, Digits.valueFrom_nil]
        omega
      rw [gatherWhole_eq (by rw [hv]; unfold maxSignificand; omega), hv]
    have hfraction : (if cs.isEmpty then none else some cs).getD [] = cs := by
      cases cs with
      | nil => rfl
      | cons d ds => rfl
    have hv := Digits.value_ofNat exponent.natAbs
    unfold Numeral.parts
    dsimp only
    rw [hgather, hfraction]
    refine Prod.ext rfl ?_
    by_cases hneg : exponent < 0
    · rw [decide_eq_true hneg]
      show ((0 : Nat) : Int) - ((gatherFraction (Digits.digitValue c) cs).2 : Int)
        + -((Digits.value (Digits.ofNat exponent.natAbs) : Nat) : Int) = _
      rw [hv]
      omega
    · rw [decide_eq_false hneg]
      show ((0 : Nat) : Int) - ((gatherFraction (Digits.digitValue c) cs).2 : Int)
        + ((Digits.value (Digits.ofNat exponent.natAbs) : Nat) : Int) = _
      rw [hv]
      omega

theorem lt_pow_of_length {digits k : Nat} (h : (Digits.ofNat digits).length ≤ k) :
    digits < 10 ^ k := by
  have hlt := Digits.value_lt (Digits.ofNat digits) (Digits.isDigit_of_mem_ofNat digits)
  rw [Digits.value_ofNat] at hlt
  exact hlt.trans_le (Nat.pow_le_pow_right (by omega) h)

/-- digits that are written without an exponent have a short whole part -/
theorem positional_short {digits : Nat} (hd : 0 < digits) {power : Int}
    (hleast : -1075 ≤ power) (hmost : power + (Digits.ofNat digits).length - 1 ≤ 15) :
    ∃ whole fraction, positional digits power = Digits.ofNat whole ++ '.' :: fraction ∧
      whole < 10 ^ 16 ∧ fraction ≠ [] ∧ (∀ c ∈ fraction, c.isDigit = true) ∧
      fraction.length ≤ 1075 := by
  by_cases h : 0 ≤ power
  · refine ⟨digits * 10 ^ power.toNat, ['0'], positional_of_nonneg hd h, ?_, List.cons_ne_nil _ _,
      Digits.isDigit_of_mem_zero, by simp⟩
    have hlt := lt_pow_of_length (le_refl (Digits.ofNat digits).length)
    calc digits * 10 ^ power.toNat
        < 10 ^ (Digits.ofNat digits).length * 10 ^ power.toNat :=
          Nat.mul_lt_mul_of_pos_right hlt (Nat.pow_pos (by omega))
      _ = 10 ^ ((Digits.ofNat digits).length + power.toNat) := (pow_add ..).symm
      _ ≤ 10 ^ 16 := Nat.pow_le_pow_right (by omega) (by omega)
  · obtain ⟨fraction, e, hl, hdigits, -⟩ := positional_of_neg digits h
    refine ⟨_, fraction, e, ?_, ?_, hdigits, by omega⟩
    · apply Nat.div_lt_of_lt_mul
      rw [← pow_add]
      exact lt_pow_of_length (by omega)
    · intro hnil
      rw [hnil] at hl
      have hzero : 0 = (-power).toNat := hl
      omega

/-- the digits of a number that follow the first one -/
theorem valueFrom_first {digits : Nat} {c : Char} {cs : List Char} (h : Digits.ofNat digits = c :: cs) :
    Digits.valueFrom (Digits.digitValue c) cs = digits := by
  have hv := Digits.value_ofNat digits
  rw [h, Digits.value, Digits.valueFrom_cons, Nat.mul_zero, Nat.zero_add] at hv
  exact hv

/-- **The digits of a rank are written as a numeral that has a value.** -/
theorem exists_numeral_rank (negative : Bool) {rank : Nat} (hr : 0 < rank)
    (hrank : rank < 2047 * 2 ^ 52) :
    ∃ n : Numeral, n.Valid ∧ n.negative = negative ∧ n.value?.isSome = true ∧
      n.body = writeRank rank := by
  obtain ⟨digits, power, hshort⟩ : ∃ digits power, shortest .toEven rank = (digits, power) :=
    ⟨_, _, rfl⟩
  have hleast := le_shortest_power .toEven rank
  have hdigits := shortest_pos .toEven hr
  rw [hshort] at hleast hdigits
  dsimp only at hleast hdigits
  unfold writeRank
  rw [hshort]
  dsimp only
  split
  · next h =>
    obtain ⟨whole, fraction, e, hw, hne, hd, hl⟩ := positional_short hdigits hleast h.2
    obtain ⟨n, hvalid, hnegative, hbody, hparts⟩ := exists_numeral_positional negative
      (le_maxSignificand hw) hne hd
    exact ⟨n, hvalid, hnegative, isSome_value?_positional hw hne hd hl hparts, by rw [hbody, e]⟩
  · cases htext : Digits.ofNat digits with
    | nil => exact absurd htext (Digits.ofNat_ne_nil digits)
    | cons c cs =>
      have hd : ∀ d ∈ c :: cs, d.isDigit = true := by
        rw [← htext]
        exact Digits.isDigit_of_mem_ofNat digits
      have hvalue := valueFrom_first htext
      have hfirst : 0 < Digits.digitValue c := by
        refine Digits.digitValue_pos (hd c List.mem_cons_self) ?_
        rintro rfl
        have hzero := (Digits.ofNat_eq_zero_cons htext).1
        omega
      obtain ⟨n, hvalid, hnegative, hbody, hparts⟩ := exists_numeral_scientific negative hd
        (power + ((c :: cs).length : Int) - 1)
      obtain ⟨hcount, hstart, hle⟩ := gatherFraction_spec (Digits.digitValue c) cs
      rw [hvalue] at hle
      generalize gatherFraction (Digits.digitValue c) cs = gathered at hparts hcount hstart hle
      refine ⟨n, hvalid, hnegative, isSome_value? hparts ?_, hbody⟩
      rw [List.length_cons]
      by_cases hneg : power + ((cs.length + 1 : Nat) : Int) - 1 - gathered.2 < 0
      · exact isSome_scale?_of_neg 3 _ hneg (by omega)
      · obtain ⟨scaled, hpower⟩ := Int.eq_ofNat_of_zero_le (Int.not_lt.mp hneg)
        obtain ⟨hmax, hfinite⟩ := isFinite_scaled hr hrank hshort (hfirst.trans_le hstart)
          hle (show power + ((cs.length - gathered.2 : Nat) : Int) = (scaled : Nat) by omega)
        rw [hpower]
        exact isSome_scale?_of_finite 3 hmax hfinite

/-- **A finite number is written as a numeral that has a value**, with its sign. -/
theorem exists_numeral (negative : Bool) (rank : Fin (2047 * Nat.pow 2 52)) :
    ∃ n : Numeral, n.Valid ∧ n.negative = negative ∧ n.value?.isSome = true ∧
      writeNumber (.finite negative rank) = (if n.negative then ['-'] else []) ++ n.body := by
  rw [writeNumber]
  by_cases h : rank.val = 0
  · obtain ⟨n, hvalid, rfl, hbody, hparts⟩ := exists_numeral_positional negative
      (Nat.zero_le _) (List.cons_ne_nil '0' []) Digits.isDigit_of_mem_zero
    refine ⟨n, hvalid, rfl, isSome_value?_positional (by omega) (List.cons_ne_nil '0' [])
      Digits.isDigit_of_mem_zero (by simp) hparts, ?_⟩
    rw [if_pos h, hbody, Digits.ofNat_zero]
    rfl
  · obtain ⟨n, hvalid, rfl, hvalue, hbody⟩ := exists_numeral_rank negative
      (Nat.pos_of_ne_zero h) rank.isLt
    refine ⟨n, hvalid, rfl, hvalue, ?_⟩
    rw [if_neg h, hbody]

end DeskClock.Json
