import DeskClock.Binary64.Decimal
import Mathlib

/-!
# rounding to the nearest float

* `units_lt_units`         the absolute values of the ranks are strictly increasing;
* `contains_nearestRank`   a number lies in the interval of the rank that it is rounded to;
* `le_of_contains`         the intervals lie side by side, an end that two share belonging to one;
* `nearestRank_eq`         so a number is rounded to the rank in whose interval it lies;
* `nearestRank_le`         and rounding keeps the order;
* `ofDecimal_eq`           the same for a decimal that is read.

A rank is `s * 2 ^ 52 + m` with a significand `m` of at most 53 bits and a shift `s`, and its value is
then `m * 2 ^ s` units. All facts about the binades come from this one form.
-/

namespace DeskClock

theorem roundHalfEven_spec (num : Nat) {den : Nat} (hd : 0 < den) :
    2 * (roundHalfEven num den * den) ≤ 2 * num + den ∧
    2 * num ≤ 2 * (roundHalfEven num den * den) + den ∧
    (roundHalfEven num den % 2 = 1 → 2 * (roundHalfEven num den * den) ≠ 2 * num + den ∧
      2 * num ≠ 2 * (roundHalfEven num den * den) + den) := by
  have hq : den * (num / den) + num % den = num := Nat.div_add_mod num den
  have hr : num % den < den := Nat.mod_lt _ hd
  have hc : num / den * den = den * (num / den) := Nat.mul_comm ..
  have hs : (num / den + 1) * den = den * (num / den) + den := by ring
  show _ ∧ _ ∧ _
  unfold roundHalfEven
  generalize num / den = q at hq hc hs ⊢
  generalize num % den = r at hq hr ⊢
  by_cases h1 : 2 * r < den
  · rw [if_pos h1, hc]
    omega
  by_cases h2 : den < 2 * r
  · rw [if_neg h1, if_pos h2, hs]
    omega
  rw [if_neg h1, if_neg h2]
  rcases Nat.mod_two_eq_zero_or_one q with h | h
  · rw [h, Nat.add_zero, hc]
    omega
  · rw [h, hs]
    omega

namespace Binary64

/-! ## ranks as shifted significands -/

theorem units_eq (rank : Nat) : units rank =
    if rank < 2 ^ 52 then rank else (2 ^ 52 + rank % 2 ^ 52) * 2 ^ (rank / 2 ^ 52 - 1) := rfl

theorem units_shift {s m : Nat} (hm : m ≤ 2 ^ 53) (h : s = 0 ∨ 2 ^ 52 ≤ m) :
    units (s * 2 ^ 52 + m) = m * 2 ^ s := by
  rw [units_eq]
  by_cases h1 : s * 2 ^ 52 + m < 2 ^ 52
  · have hs : s = 0 := by omega
    rw [if_pos h1, hs, pow_zero]
    omega
  rw [if_neg h1]
  by_cases h2 : m = 2 ^ 53
  · have e1 : (s * 2 ^ 52 + m) % 2 ^ 52 = 0 := by omega
    have e2 : (s * 2 ^ 52 + m) / 2 ^ 52 - 1 = s + 1 := by omega
    rw [e1, e2, h2, pow_succ 2 s]
    ring
  · have e1 : 2 ^ 52 + (s * 2 ^ 52 + m) % 2 ^ 52 = m := by omega
    have e2 : (s * 2 ^ 52 + m) / 2 ^ 52 - 1 = s := by omega
    rw [e1, e2]

/-- every rank has a shift and a significand -/
theorem exists_shift (rank : Nat) :
    ∃ s m, rank = s * 2 ^ 52 + m ∧ m < 2 ^ 53 ∧ (s = 0 ∨ 2 ^ 52 ≤ m) := by
  by_cases h : rank < 2 ^ 52
  · exact ⟨0, rank, by omega, by omega, Or.inl rfl⟩
  · exact ⟨rank / 2 ^ 52 - 1, 2 ^ 52 + rank % 2 ^ 52, by omega, by omega, Or.inr (by omega)⟩

theorem units_succ_shift {s m : Nat} (hm : m < 2 ^ 53) (h : s = 0 ∨ 2 ^ 52 ≤ m) :
    units (s * 2 ^ 52 + m + 1) = (m + 1) * 2 ^ s := by
  have h' : s = 0 ∨ 2 ^ 52 ≤ m + 1 := by omega
  rw [Nat.add_assoc, units_shift hm h']

theorem units_lt_succ (rank : Nat) : units rank < units (rank + 1) := by
  obtain ⟨s, m, rfl, hm, h⟩ := exists_shift rank
  rw [units_succ_shift hm h, units_shift hm.le h]
  exact Nat.mul_lt_mul_of_pos_right (Nat.lt_succ_self m) (Nat.two_pow_pos s)

theorem units_strictMono : StrictMono units := strictMono_nat_of_lt_succ units_lt_succ

theorem units_lt_units {a b : Nat} (h : a < b) : units a < units b := units_strictMono h
theorem units_le_units {a b : Nat} (h : a ≤ b) : units a ≤ units b := units_strictMono.monotone h

theorem units_pos {rank : Nat} (h : 0 < rank) : 0 < units rank := units_lt_units h

/-! ## the interval of a rank -/

namespace Interval

theorem contains_iff (i : Interval) (num den : Nat) :
    i.contains num den = true ↔ i.low * den ≤ num ∧ num ≤ i.high * den ∧
      (i.closed = false → i.low * den ≠ num ∧ num ≠ i.high * den) := by
  unfold contains
  cases i.closed with
  | true => simp
  | false =>
    simp only [Bool.false_eq_true, if_false, Bool.and_eq_true, decide_eq_true_eq, true_imp_iff]
    omega

theorem contains_mul {i : Interval} {num den : Nat} (k : Nat) (hk : 0 < k)
    (h : i.contains num den = true) : i.contains (num * k) (den * k) = true := by
  obtain ⟨h1, h2, h3⟩ := (contains_iff i num den).mp h
  refine (contains_iff i _ _).mpr ⟨?_, ?_, fun hc => ⟨fun e => (h3 hc).1 ?_, fun e => (h3 hc).2 ?_⟩⟩
  · rw [← Nat.mul_assoc]
    exact Nat.mul_le_mul_right k h1
  · rw [← Nat.mul_assoc]
    exact Nat.mul_le_mul_right k h2
  · exact Nat.eq_of_mul_eq_mul_right hk (by rw [Nat.mul_assoc]; exact e)
  · exact Nat.eq_of_mul_eq_mul_right hk (by rw [Nat.mul_assoc]; exact e)

end Interval

theorem closed_interval (rank : Nat) : (interval rank).closed = false ↔ rank % 2 = 1 := by
  show (rank % 2 == 0) = false ↔ _
  rw [beq_eq_false_iff_ne]
  omega

/-- the interval of a rank ends where that of the next one starts, or earlier than a later one -/
theorem high_le_low {a b : Nat} (h : a < b) : (interval a).high ≤ (interval b).low := by
  have h1 : units a ≤ units (b - 1) := units_le_units (by omega)
  have h2 : units (a + 1) ≤ units b := units_le_units h
  show 2 * (units a + units (a + 1)) ≤ 2 * (units (b - 1) + units b)
  omega

theorem succ_of_high_eq_low {a b : Nat} (h : a < b) (e : (interval a).high = (interval b).low) :
    b = a + 1 := by
  by_contra hne
  have h1 : units a < units (b - 1) := units_lt_units (by omega)
  have h2 : units (a + 1) ≤ units b := units_le_units h
  have e' : 2 * (units a + units (a + 1)) = 2 * (units (b - 1) + units b) := e
  omega

/-- **The intervals lie in the order of their ranks.** -/
theorem le_of_contains {a b num den num' den' : Nat} (hd : 0 < den) (hd' : 0 < den')
    (h : (interval a).contains num den = true) (h' : (interval b).contains num' den' = true)
    (hle : num * den' ≤ num' * den) : a ≤ b := by
  by_contra hlt
  have hlt : b < a := Nat.lt_of_not_le hlt
  obtain ⟨h1, -, h3⟩ := (Interval.contains_iff _ _ _).mp h
  obtain ⟨-, h2, h4⟩ := (Interval.contains_iff _ _ _).mp h'
  have hb := high_le_low hlt
  have c1 : (interval a).low * den * den' ≤ num * den' := Nat.mul_le_mul_right _ h1
  have c2 : num' * den ≤ (interval b).high * den' * den := Nat.mul_le_mul_right _ h2
  have c3 : (interval b).high * (den * den') ≤ (interval a).low * (den * den') :=
    Nat.mul_le_mul_right _ hb
  have e1 : (interval a).low * den * den' = (interval a).low * (den * den') := Nat.mul_assoc ..
  have e2 : (interval b).high * den' * den = (interval b).high * (den * den') := by ring
  -- both numbers are the end that the two intervals share, which belongs to the even rank only
  have e : (interval b).high * (den * den') = (interval a).low * (den * den') := by omega
  have hs := succ_of_high_eq_low hlt (Nat.eq_of_mul_eq_mul_right (Nat.mul_pos hd hd') e)
  have ea : (interval a).low * den = num := Nat.eq_of_mul_eq_mul_right hd' (by omega)
  have eb : num' = (interval b).high * den' := Nat.eq_of_mul_eq_mul_right hd (by omega)
  rcases Nat.mod_two_eq_zero_or_one a with hp | hp
  · exact (h4 ((closed_interval b).mpr (by omega))).2 eb
  · exact (h3 ((closed_interval a).mpr hp)).1 ea

/-! ## the nearest rank -/

theorem shift_spec (num den : Nat) (hd : 0 < den) :
    num < 2 ^ 53 * (den * 2 ^ ((num / den).log2 - 52)) ∧
    ((num / den).log2 - 52 = 0 ∨ 2 ^ 52 * (den * 2 ^ ((num / den).log2 - 52)) ≤ num) := by
  generalize hk : (num / den).log2 - 52 = k
  have hlt : num / den < 2 ^ (53 + k) :=
    lt_of_lt_of_le Nat.lt_log2_self (Nat.pow_le_pow_right (by omega) (by omega))
  have h1 : num < 2 ^ (53 + k) * den := (Nat.div_lt_iff_lt_mul hd).mp hlt
  refine ⟨by rw [pow_add] at h1; linarith, ?_⟩
  rcases Nat.eq_zero_or_pos k with h0 | h0
  · exact Or.inl h0
  right
  have hne : num / den ≠ 0 := by
    intro h
    rw [h, Nat.log2_zero] at hk
    omega
  have hge : 2 ^ (52 + k) ≤ num / den := by
    have hl : (num / den).log2 = 52 + k := by omega
    rw [← hl]
    exact Nat.log2_self_le hne
  have h2 : 2 ^ (52 + k) * den ≤ num := (Nat.le_div_iff_mul_le hd).mp hge
  rw [pow_add] at h2
  linarith

/-- a significand that is rounded has at most 53 bits, and no fewer if it is shifted -/
theorem roundHalfEven_shift (num den : Nat) (hd : 0 < den) :
    roundHalfEven num (den * 2 ^ ((num / den).log2 - 52)) ≤ 2 ^ 53 ∧
    ((num / den).log2 - 52 = 0 ∨
      2 ^ 52 ≤ roundHalfEven num (den * 2 ^ ((num / den).log2 - 52))) := by
  obtain ⟨h1, h2⟩ := shift_spec num den hd
  have hD : 0 < den * 2 ^ ((num / den).log2 - 52) := Nat.mul_pos hd (Nat.two_pow_pos _)
  obtain ⟨r1, r2, -⟩ := roundHalfEven_spec num hD
  generalize den * 2 ^ ((num / den).log2 - 52) = D at h1 h2 hD r1 r2 ⊢
  generalize roundHalfEven num D = m at r1 r2 ⊢
  constructor
  · by_contra hlt
    have : (2 ^ 53 + 1) * D ≤ m * D := Nat.mul_le_mul_right D (by omega)
    linarith
  · refine h2.imp_right fun h2 => ?_
    by_contra hlt
    have : (m + 1) * D ≤ 2 ^ 52 * D := Nat.mul_le_mul_right D (by omega)
    linarith

theorem nearestRank_def (num den : Nat) : nearestRank num den =
    ((num / den).log2 - 52) * 2 ^ 52 + roundHalfEven num (den * 2 ^ ((num / den).log2 - 52)) := rfl

/-- **A number lies in the interval of its nearest rank.** -/
theorem contains_nearestRank (num : Nat) {den : Nat} (hd : 0 < den) :
    (interval (nearestRank num den)).contains (4 * num) den = true := by
  obtain ⟨hm, hs⟩ := roundHalfEven_shift num den hd
  have hsh := (shift_spec num den hd).2
  rw [nearestRank_def]
  have hD : 0 < den * 2 ^ ((num / den).log2 - 52) := Nat.mul_pos hd (Nat.two_pow_pos _)
  obtain ⟨r1, r2, r3⟩ := roundHalfEven_spec num hD
  generalize (num / den).log2 - 52 = s at hm hs hsh hD r1 r2 r3 ⊢
  generalize roundHalfEven num (den * 2 ^ s) = m at hm hs r1 r2 r3 ⊢
  have hu : units (s * 2 ^ 52 + m) * den = m * (den * 2 ^ s) := by
    rw [units_shift hm hs]
    ring
  have hup : (m + 1) * (den * 2 ^ s) ≤ units (s * 2 ^ 52 + m + 1) * den := by
    rcases Nat.lt_or_eq_of_le hm with h | h
    · rw [units_succ_shift h hs]
      exact le_of_eq (by ring)
    · have e : s * 2 ^ 52 + m + 1 = (s + 1) * 2 ^ 52 + (2 ^ 52 + 1) := by omega
      have e2 : (2 ^ 52 + 1) * 2 ^ (s + 1) * den = (2 ^ 53 + 2) * (den * 2 ^ s) := by
        rw [pow_succ 2 s]
        ring
      rw [e, units_shift (by omega) (by omega), h, e2]
      exact Nat.mul_le_mul_right _ (by omega)
  have hlow : units (s * 2 ^ 52 + m - 1) * den + den * 2 ^ s ≤ m * (den * 2 ^ s) ∨
      units (s * 2 ^ 52 + m - 1) * den + m * (den * 2 ^ s) ≤ 2 * num ∧ m % 2 = 0 := by
    by_cases h0 : m = 0
    · have hz : s = 0 := by omega
      right
      rw [h0, hz, show units (0 * 2 ^ 52 + 0 - 1) = 0 from rfl]
      omega
    by_cases h1 : s = 0 ∨ 2 ^ 52 < m
    · left
      have e : s * 2 ^ 52 + m - 1 = s * 2 ^ 52 + (m - 1) := by omega
      obtain ⟨k, rfl⟩ : ∃ k, m = k + 1 := ⟨m - 1, by omega⟩
      rw [e, Nat.add_sub_cancel, units_shift (by omega) (by omega)]
      exact le_of_eq (by ring)
    · right
      have e : m = 2 ^ 52 := by omega
      have hle : units (s * 2 ^ 52 + m - 1) * den ≤ units (s * 2 ^ 52 + m) * den :=
        Nat.mul_le_mul_right _ (units_le_units (by omega))
      have hnum : 2 ^ 52 * (den * 2 ^ s) ≤ num := by
        rcases hsh with h | h
        · omega
        · exact h
      rw [hu] at hle
      rw [e] at hle ⊢
      omega
  refine (Interval.contains_iff _ _ _).mpr ?_
  have el : (interval (s * 2 ^ 52 + m)).low * den
      = 2 * (units (s * 2 ^ 52 + m - 1) * den + m * (den * 2 ^ s)) := by
    rw [← hu]
    show 2 * (_ + _) * den = _
    ring
  have eh : (interval (s * 2 ^ 52 + m)).high * den
      = 2 * (m * (den * 2 ^ s) + units (s * 2 ^ 52 + m + 1) * den) := by
    rw [← hu]
    show 2 * (_ + _) * den = _
    ring
  rw [el, eh, closed_interval]
  have e1 : (m + 1) * (den * 2 ^ s) = m * (den * 2 ^ s) + den * 2 ^ s := Nat.succ_mul ..
  omega

/-- **A number is rounded to the rank in whose interval it lies.** -/
theorem nearestRank_eq {num den rank : Nat} (hd : 0 < den)
    (h : (interval rank).contains (4 * num) den = true) : nearestRank num den = rank :=
  Nat.le_antisymm (le_of_contains hd hd (contains_nearestRank num hd) h le_rfl)
    (le_of_contains hd hd h (contains_nearestRank num hd) le_rfl)

theorem nearestRank_le {num den num' den' : Nat} (hd : 0 < den) (hd' : 0 < den')
    (h : num * den' ≤ num' * den) : nearestRank num den ≤ nearestRank num' den' := by
  refine le_of_contains hd hd' (contains_nearestRank num hd) (contains_nearestRank num' hd') ?_
  rw [Nat.mul_assoc, Nat.mul_assoc]
  exact Nat.mul_le_mul_left 4 h

end Binary64

end DeskClock
