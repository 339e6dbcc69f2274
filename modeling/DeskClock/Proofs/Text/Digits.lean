import DeskClock.Text.Digits
import Mathlib

/-!
# reading back decimal digits

* `value_ofNat`, `value_padded`   the digits of a number stand for the number;
* `isDigit_of_mem_ofNat`          they are decimal digits;
* `length_ofNat_le`, `length_padded`   how many they are;
* `padded_eq`                     the point among filled digits;
* `WritesOut`                     a number written out; `WritesOut.eq`: there is one way to do so;
* `valueFrom_eq`                  a run of digits behind a number moves the number up;
* `hexValue?_hexDigit`            a digit of base sixteen.
-/

namespace DeskClock.Digits

/-! ## single digits -/

theorem toNat_ofNat (n : Nat) (h : n < 128) : (Char.ofNat n).toNat = n := by
  have hv : n.isValidChar := Or.inl (by omega)
  rw [Char.ofNat, dif_pos hv]
  rfl

theorem toNat_digit (n : Nat) : (digit n).toNat = 48 + n % 10 :=
  toNat_ofNat _ (by omega)

theorem isDigit_digit (n : Nat) : (digit n).isDigit = true := by
  have h := toNat_digit n
  rw [Char.isDigit_iff_toNat, h]
  show 48 ≤ 48 + n % 10 ∧ 48 + n % 10 ≤ 57
  omega

theorem digitValue_digit (n : Nat) : digitValue (digit n) = n % 10 := by
  show (digit n).toNat - 48 = n % 10
  rw [toNat_digit]
  omega

theorem digitValue_lt {c : Char} (h : c.isDigit = true) : digitValue c < 10 := by
  have h9 : c.toNat ≤ 57 := (Char.isDigit_iff_toNat.mp h).2
  have hv : c.toNat - 48 < 10 := by omega
  exact hv

theorem digit_digitValue {c : Char} (h : c.isDigit = true) : digit (digitValue c) = c := by
  have hrange : 48 ≤ c.toNat ∧ c.toNat ≤ 57 := Char.isDigit_iff_toNat.mp h
  have hvalue : digitValue c = c.toNat - 48 := rfl
  refine Char.toNat_inj.mp ?_
  rw [toNat_digit, hvalue]
  omega

theorem digitValue_pos {c : Char} (h : c.isDigit = true) (hne : c ≠ '0') : 0 < digitValue c := by
  by_contra hzero
  have hc := digit_digitValue h
  rw [Nat.eq_zero_of_not_pos hzero] at hc
  exact hne hc.symm

/-- a mark that is no digit does not stand among digits -/
theorem not_mem_of_isDigit {mark : Char} (hmark : mark.isDigit = false) {cs : List Char}
    (h : ∀ c ∈ cs, c.isDigit = true) : mark ∉ cs := by
  intro hmem
  have hdigit := h mark hmem
  rw [hmark] at hdigit
  cases hdigit

/-! ## the value of a run of digits -/

theorem valueFrom_nil (start : Nat) : valueFrom start [] = start := rfl

theorem valueFrom_cons (start : Nat) (c : Char) (cs : List Char) :
    valueFrom start (c :: cs) = valueFrom (10 * start + digitValue c) cs :=
  List.foldl_cons ..

theorem valueFrom_append (start : Nat) (a b : List Char) :
    valueFrom start (a ++ b) = valueFrom (valueFrom start a) b := by
  unfold valueFrom
  rw [List.foldl_append]

theorem valueFrom_eq (start : Nat) (cs : List Char) :
    valueFrom start cs = start * 10 ^ cs.length + value cs := by
  induction cs generalizing start with
  | nil => rw [valueFrom_nil, List.length_nil, pow_zero, mul_one]; rfl
  | cons c cs ih =>
    show valueFrom start (c :: cs) = start * 10 ^ (cs.length + 1) + valueFrom 0 (c :: cs)
    rw [valueFrom_cons, valueFrom_cons, ih, ih (10 * 0 + digitValue c), pow_succ]
    ring

theorem value_append (a b : List Char) : value (a ++ b) = value a * 10 ^ b.length + value b := by
  show valueFrom 0 (a ++ b) = _
  rw [valueFrom_append, valueFrom_eq]
  rfl

theorem value_append_digit (a : List Char) (n : Nat) :
    value (a ++ [digit n]) = 10 * value a + n % 10 := by
  rw [value_append]
  show value a * 10 ^ 1 + (10 * 0 + digitValue (digit n)) = _
  rw [digitValue_digit]
  omega

theorem value_zeros (n : Nat) : value (List.replicate n '0') = 0 := by
  induction n with
  | zero => rfl
  | succ n ih =>
    rw [List.replicate_succ]
    exact ih

theorem value_lt (cs : List Char) (h : ∀ c ∈ cs, c.isDigit = true) : value cs < 10 ^ cs.length := by
  induction cs using List.reverseRecOn with
  | nil => exact Nat.one_pos
  | append_singleton cs c ih =>
    have hc := digitValue_lt (h c (List.mem_append_right _ (List.mem_singleton_self c)))
    have ih' := ih fun d hd => h d (List.mem_append_left _ hd)
    rw [value_append, List.length_append, List.length_singleton, pow_one, pow_succ]
    have hv : value [c] = digitValue c := Nat.zero_add _
    omega

theorem value_pos {c : Char} {cs : List Char} (h : c.isDigit = true) (hne : c ≠ '0') :
    0 < value (c :: cs) := by
  show 0 < valueFrom (10 * 0 + digitValue c) cs
  rw [Nat.mul_zero, Nat.zero_add, valueFrom_eq]
  have := Nat.mul_pos (digitValue_pos h hne) (Nat.pow_pos (n := cs.length) (show 0 < 10 by decide))
  omega

/-! ## the digits of a number -/

theorem value_ofNat (n : Nat) : value (ofNat n) = n := by
  induction n using ofNat.induct with
  | case1 n h =>
    rw [ofNat, if_pos h]
    show 10 * 0 + digitValue (digit n) = n
    rw [digitValue_digit]
    omega
  | case2 n h ih =>
    rw [ofNat, if_neg h, value_append_digit, ih]
    omega

theorem ofNat_inj {n m : Nat} (h : ofNat n = ofNat m) : n = m := by
  rw [← value_ofNat n, h, value_ofNat]

theorem ofNat_zero : ofNat 0 = ['0'] := by
  rw [ofNat, if_pos (by omega)]
  rfl

theorem isDigit_of_mem_zero : ∀ c ∈ ['0'], c.isDigit = true := by
  intro c hc
  rw [List.mem_singleton.mp hc]
  rfl

theorem ofNat_ne_nil (n : Nat) : ofNat n ≠ [] := by
  rw [ofNat]
  split
  · exact List.cons_ne_nil _ _
  · exact List.append_ne_nil_of_right_ne_nil _ (List.cons_ne_nil _ _)

theorem isDigit_of_mem_ofNat (n : Nat) : ∀ c ∈ ofNat n, c.isDigit = true := by
  induction n using ofNat.induct with
  | case1 n h =>
    intro c hc
    rw [ofNat, if_pos h, List.mem_singleton] at hc
    rw [hc]
    exact isDigit_digit n
  | case2 n h ih =>
    intro c hc
    rw [ofNat, if_neg h] at hc
    rcases List.mem_append.mp hc with h1 | h1
    · exact ih c h1
    · rw [List.mem_singleton.mp h1]
      exact isDigit_digit n

theorem length_ofNat_le {n w : Nat} (hw : 0 < w) (h : n < 10 ^ w) : (ofNat n).length ≤ w := by
  induction n using ofNat.induct generalizing w with
  | case1 n hn =>
    rw [ofNat, if_pos hn]
    exact hw
  | case2 n hn ih =>
    rw [ofNat, if_neg hn, List.length_append, List.length_singleton]
    obtain ⟨v, rfl⟩ : ∃ v, w = v + 1 := ⟨w - 1, by omega⟩
    rw [pow_succ] at h
    have hv : 0 < v := by
      rcases Nat.eq_zero_or_pos v with rfl | hv
      · omega
      · exact hv
    have := ih hv (by omega)
    omega

/-- the digits of a number other than zero do not start with a zero -/
theorem ofNat_eq_zero_cons {n : Nat} {cs : List Char} (h : ofNat n = '0' :: cs) :
    n = 0 ∧ cs = [] := by
  induction n using ofNat.induct generalizing cs with
  | case1 n hn =>
    rw [ofNat, if_pos hn] at h
    obtain ⟨h1, h2⟩ := List.cons.inj h
    have hv := toNat_digit n
    rw [h1] at hv
    have hz : (48 : Nat) = 48 + n % 10 := hv
    exact ⟨by omega, h2.symm⟩
  | case2 n hn ih =>
    rw [ofNat, if_neg hn] at h
    cases hq : ofNat (n / 10) with
    | nil => exact absurd hq (ofNat_ne_nil _)
    | cons d ds =>
      rw [hq] at h
      obtain ⟨h1, -⟩ := List.cons.inj h
      rw [h1] at hq
      have := (ih hq).1
      omega

theorem ofNat_ten_mul {n : Nat} (h : 0 < n) : ofNat (n * 10) = ofNat n ++ ['0'] := by
  rw [ofNat, if_neg (by omega), Nat.mul_div_cancel n (by omega), digit, Nat.mul_mod_left]

theorem ofNat_mul_pow {n : Nat} (h : 0 < n) (k : Nat) :
    ofNat (n * 10 ^ k) = ofNat n ++ List.replicate k '0' := by
  induction k with
  | zero => rw [pow_zero, mul_one, List.replicate_zero, List.append_nil]
  | succ k ih =>
    rw [pow_succ, ← mul_assoc, ofNat_ten_mul (Nat.mul_pos h (Nat.pow_pos (by omega))), ih,
      List.append_assoc, List.replicate_succ']

/-! ## digits filled with zeros -/

theorem value_padded (w n : Nat) : value (padded w n) = n := by
  rw [padded, value_append, value_zeros, Nat.zero_mul, Nat.zero_add, value_ofNat]

theorem padded_inj {w n m : Nat} (h : padded w n = padded w m) : n = m := by
  rw [← value_padded w n, h, value_padded]

theorem isDigit_of_mem_padded (w n : Nat) : ∀ c ∈ padded w n, c.isDigit = true := by
  intro c hc
  rcases List.mem_append.mp hc with h | h
  · rw [(List.mem_replicate.mp h).2]
    rfl
  · exact isDigit_of_mem_ofNat n c h

theorem padded_ne_nil (w n : Nat) : padded w n ≠ [] :=
  List.append_ne_nil_of_right_ne_nil _ (ofNat_ne_nil n)

theorem length_padded {w n : Nat} (hw : 0 < w) (h : n < 10 ^ w) : (padded w n).length = w := by
  have hl := length_ofNat_le hw h
  rw [padded, List.length_append, List.length_replicate]
  omega

theorem padded_one (n : Nat) : padded 1 n = ofNat n := by
  have h : 0 < (ofNat n).length := List.length_pos_of_ne_nil (ofNat_ne_nil n)
  rw [padded, show 1 - (ofNat n).length = 0 by omega]
  rfl

theorem padded_add_two (w n : Nat) : padded (w + 2) n = padded (w + 1) (n / 10) ++ [digit n] := by
  by_cases h : n < 10
  · have e : ofNat n = [digit n] := by rw [ofNat, if_pos h]
    have e0 : ofNat (n / 10) = ['0'] := by rw [Nat.div_eq_of_lt h, ofNat_zero]
    rw [padded, padded, e, e0]
    show List.replicate (w + 1) '0' ++ [digit n] = List.replicate w '0' ++ ['0'] ++ [digit n]
    rw [List.replicate_succ']
  · have e : ofNat n = ofNat (n / 10) ++ [digit n] := by rw [ofNat, if_neg h]
    rw [padded, padded, e, List.length_append, List.length_singleton,
      show w + 2 - ((ofNat (n / 10)).length + 1) = w + 1 - (ofNat (n / 10)).length by omega,
      List.append_assoc]

/-- filled digits are those of a whole part and of a given count of places behind it -/
theorem padded_eq (places n : Nat) : ∃ fraction, padded (places + 1) n =
    ofNat (n / 10 ^ places) ++ fraction ∧ fraction.length = places := by
  induction places generalizing n with
  | zero => exact ⟨[], by rw [padded_one, pow_zero, Nat.div_one, List.append_nil], rfl⟩
  | succ places ih =>
    obtain ⟨fraction, h1, h2⟩ := ih (n / 10)
    refine ⟨fraction ++ [digit n], ?_, ?_⟩
    · rw [padded_add_two, h1, Nat.div_div_eq_div_mul, ← pow_succ', List.append_assoc]
    · rw [List.length_append, h2, List.length_singleton]

/-! ## numbers written out -/

/-- a number written out: digits that stand for it, the first of which is no zero unless it is the only one -/
structure WritesOut (cs : List Char) (n : Nat) : Prop where
  digits : ∀ c ∈ cs, c.isDigit = true
  ne_nil : cs ≠ []
  first : ∀ rest, cs = '0' :: rest → rest = []
  reads : value cs = n

theorem writesOut_ofNat (n : Nat) : WritesOut (ofNat n) n where
  digits := isDigit_of_mem_ofNat n
  ne_nil := ofNat_ne_nil n
  first _ h := (ofNat_eq_zero_cons h).2
  reads := value_ofNat n

/-- **A number is written out in one way.** -/
theorem WritesOut.eq {cs : List Char} {n : Nat} (h : WritesOut cs n) : cs = ofNat n := by
  induction cs using List.reverseRecOn generalizing n with
  | nil => exact absurd rfl h.ne_nil
  | append_singleton init c ih =>
    have hc := h.digits c (List.mem_append_right _ (List.mem_singleton_self c))
    have hinit := fun d hd => h.digits d (List.mem_append_left [c] hd)
    have hone : value [c] = digitValue c := Nat.zero_add _
    have hvalue : value init * 10 + digitValue c = n := by
      rw [← h.reads, value_append, List.length_singleton, pow_one, hone]
    have hlt := digitValue_lt hc
    have hlast : digit n = c := by
      rw [← digit_digitValue hc, digit, digit]
      congr 2
      omega
    cases init with
    | nil =>
      rw [ofNat, if_pos (by rw [← hvalue]; show 0 * 10 + _ < 10; omega), hlast]
      rfl
    | cons d ds =>
      have hfirst : d ≠ '0' := by
        rintro rfl
        exact absurd (h.first (ds ++ [c]) rfl) (List.append_ne_nil_of_right_ne_nil _ (List.cons_ne_nil _ _))
      have hpos : 0 < value (d :: ds) := value_pos (hinit d List.mem_cons_self) hfirst
      have hfront : WritesOut (d :: ds) (n / 10) := by
        refine ⟨hinit, List.cons_ne_nil _ _, fun rest hrest => absurd (List.cons.inj hrest).1 hfirst, ?_⟩
        omega
      rw [ofNat, if_neg (by omega), hlast, ← ih hfront]

/-! ## base sixteen -/

theorem hexValue?_hexDigit (n : Nat) (h : n < 16) : hexValue? (hexDigit n) = some n := by
  interval_cases n <;> rfl

end DeskClock.Digits
