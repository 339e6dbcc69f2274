import DeskClock.Proofs.Binary64.Shortest
import DeskClock.Toml.Reader
import DeskClock.Toml.Writer

/-!
# numbers are read back

* `ungroup_of_isDigit`, `wholeDigits?_ofNat`   a run of digits is taken as it is;
* `isMoment_eq_false`     a word without a colon, and without a dash behind its first character, is no
                          date and no time;
* `scalar?_ofInt`         an integer of 64 bits is read back;
* `scalar?_writeFloat`    so is a float, except that an undefined one loses its sign.
-/

namespace DeskClock

/-- a number as it comes back from its text: of the undefined ones only one is written -/
def Binary64.plain : Binary64 → Binary64
  | .nan _ => .nan false
  | x => x

namespace Toml

/-! ## runs of digits -/

theorem ungroup_of_isDigit {cs : List Char} (hne : cs ≠ []) (h : ∀ c ∈ cs, c.isDigit = true) :
    ungroup Char.isDigit cs = some cs := by
  induction cs with
  | nil => exact absurd rfl hne
  | cons c cs ih =>
    have hc := h c List.mem_cons_self
    cases cs with
    | nil => rw [ungroup, if_pos hc]
    | cons d cs =>
      have hd : d ≠ '_' := by
        rintro rfl
        exact absurd (h '_' (List.mem_cons_of_mem _ List.mem_cons_self)) (by decide)
      have e := ih (List.cons_ne_nil _ _) fun x hx => h x (List.mem_cons_of_mem _ hx)
      rw [ungroup, if_pos hc, e]
      · rfl
      · exact List.cons_ne_nil _ _
      · intro rest hr
        exact hd (List.cons.inj hr).1

/-- a character other than a digit or an underscore ends all hope -/
theorem ungroup_eq_none {p : Char → Bool} {cs : List Char} {c : Char} (hm : c ∈ cs)
    (hp : p c = false) (hc : c ≠ '_') : ungroup p cs = none := by
  induction cs using ungroup.induct p with
  | case1 => cases hm
  | case2 d hd =>
    rw [List.mem_singleton.mp hm] at hp
    rw [hp] at hd
    cases hd
  | case3 d hd => rw [ungroup, if_neg hd]
  | case4 d rest hd ih =>
    rw [ungroup, if_pos hd]
    rcases List.mem_cons.mp hm with rfl | hm
    · rw [hp] at hd
      cases hd
    rcases List.mem_cons.mp hm with rfl | hm
    · exact absurd rfl hc
    · rw [ih hm]
      rfl
  | case5 d rest hd => rw [ungroup, if_neg hd]
  | case6 d rest h1 h2 hd ih =>
    rw [ungroup.eq_4 _ _ _ h1 h2, if_pos hd]
    rcases List.mem_cons.mp hm with rfl | hm
    · rw [hp] at hd
      cases hd
    · rw [ih hm]
      rfl
  | case7 d rest h1 h2 hd =>
    rw [ungroup.eq_4 _ _ _ h1 h2, if_neg hd]

theorem wholeDigits?_ofNat (n : Nat) : wholeDigits? (Digits.ofNat n) = some (Digits.ofNat n) := by
  rw [wholeDigits?, ungroup_of_isDigit (Digits.ofNat_ne_nil n) (Digits.isDigit_of_mem_ofNat n)]
  split
  · exact ‹some (Digits.ofNat n) = some ['0']›.symm
  · obtain ⟨-, rfl⟩ := Digits.ofNat_eq_zero_cons (Option.some.inj ‹_›)
    exact absurd rfl ‹_›
  · rfl

theorem splitSign_ofNat_append (n : Nat) (cs : List Char) :
    splitSign (Digits.ofNat n ++ cs) = (false, Digits.ofNat n ++ cs) := by
  cases h : Digits.ofNat n with
  | nil => exact absurd h (Digits.ofNat_ne_nil n)
  | cons d ds =>
    have hd := Digits.isDigit_of_mem_ofNat n d (h ▸ List.mem_cons_self)
    rw [List.cons_append]
    unfold splitSign
    split
    · cases ‹d :: (ds ++ cs) = _›
      cases hd
    · cases ‹d :: (ds ++ cs) = _›
      cases hd
    · rfl

theorem splitSign_sign (negative : Bool) (n : Nat) (cs : List Char) :
    splitSign ((if negative then ['-'] else []) ++ (Digits.ofNat n ++ cs))
      = (negative, Digits.ofNat n ++ cs) := by
  cases negative with
  | true => rfl
  | false => exact splitSign_ofNat_append n cs

/-! ## words that are no dates and times -/

theorem ne_of_not_mem {word other : List Char} {c : Char} (h : c ∉ word) (hc : c ∈ other) :
    word ≠ other := by
  rintro rfl
  exact h hc

theorem afterTime?_eq_none {cs : List Char} (h : ':' ∉ cs) : afterTime? cs = none := by
  unfold afterTime?
  split
  · exact absurd (by simp) h
  · rfl

theorem afterDate?_eq_none {cs : List Char} (h : '-' ∉ cs.tail) : afterDate? cs = none := by
  unfold afterDate?
  split
  · exact absurd (by simp) h
  · rfl

theorem isMoment_eq_false {word : List Char} (h1 : ':' ∉ word) (h2 : '-' ∉ word.tail) :
    isMoment word = false := by
  rw [isMoment, isTime, afterTime?_eq_none h1, afterDate?_eq_none h2]
  rfl

/-! ## integers -/

/-- a word in base ten has none of the letters of the other bases -/
theorem integer?_eq {word : List Char} (hx : 'x' ∉ word) (ho : 'o' ∉ word) (hb : 'b' ∉ word) :
    integer? word = (wholeDigits? (splitSign word).2).bind fun digits =>
      inRange? (if (splitSign word).1 then -(Digits.value digits : Int) else Digits.value digits) := by
  unfold integer?
  split
  · exact absurd (List.mem_cons_of_mem _ List.mem_cons_self) hx
  · exact absurd (List.mem_cons_of_mem _ List.mem_cons_self) ho
  · exact absurd (List.mem_cons_of_mem _ List.mem_cons_self) hb
  · rfl

theorem ofInt_eq (n : Int) :
    Digits.ofInt n = (if decide (n < 0) then ['-'] else []) ++ (Digits.ofNat n.natAbs ++ []) := by
  rw [Digits.ofInt, List.append_nil]
  by_cases h : n < 0
  · rw [if_pos h, if_pos (decide_eq_true h)]
    rfl
  · rw [if_neg h, if_neg (by rw [decide_eq_false h]; exact Bool.false_ne_true)]
    rfl

theorem mem_ofInt {n : Int} {c : Char} (h : c ∈ Digits.ofInt n) : c = '-' ∨ c.isDigit = true := by
  unfold Digits.ofInt at h
  split at h
  · rcases List.mem_cons.mp h with rfl | h
    · exact .inl rfl
    · exact .inr (Digits.isDigit_of_mem_ofNat _ c h)
  · exact .inr (Digits.isDigit_of_mem_ofNat _ c h)

theorem not_mem_ofInt {n : Int} {c : Char} (h1 : c ≠ '-') (h2 : c.isDigit = false) :
    c ∉ Digits.ofInt n := by
  intro h
  rcases mem_ofInt h with rfl | h
  · exact h1 rfl
  · rw [h] at h2
    cases h2

theorem not_mem_ofInt_tail (n : Int) : '-' ∉ (Digits.ofInt n).tail := by
  intro h
  unfold Digits.ofInt at h
  split at h
  · cases Digits.isDigit_of_mem_ofNat _ '-' h
  · cases Digits.isDigit_of_mem_ofNat _ '-' (List.mem_of_mem_tail h)

theorem integer?_ofInt {n : Int} (h1 : minInteger ≤ n) (h2 : n ≤ maxInteger) :
    integer? (Digits.ofInt n) = some n := by
  have hv : (if decide (n < 0) = true then -(n.natAbs : Int) else n.natAbs) = n := by
    split_ifs with h
    · have := of_decide_eq_true h
      omega
    · have := of_decide_eq_false (Bool.not_eq_true _ ▸ h)
      omega
  rw [integer?_eq (not_mem_ofInt (by decide) rfl) (not_mem_ofInt (by decide) rfl)
    (not_mem_ofInt (by decide) rfl), ofInt_eq, splitSign_sign, List.append_nil, wholeDigits?_ofNat]
  show inRange? (if _ then -(Digits.value _ : Int) else Digits.value _) = _
  rw [Digits.value_ofNat, hv, inRange?, if_pos ⟨h1, h2⟩]

theorem scalar?_ofInt {n : Int} (h1 : minInteger ≤ n) (h2 : n ≤ maxInteger) :
    scalar? (Digits.ofInt n) = some (.integer n) := by
  have ht : Digits.ofInt n ≠ ['t', 'r', 'u', 'e'] :=
    ne_of_not_mem (not_mem_ofInt (by decide) rfl) List.mem_cons_self
  have hf : Digits.ofInt n ≠ ['f', 'a', 'l', 's', 'e'] :=
    ne_of_not_mem (not_mem_ofInt (by decide) rfl) List.mem_cons_self
  have hm := isMoment_eq_false (not_mem_ofInt (n := n) (c := ':') (by decide) rfl)
    (not_mem_ofInt_tail n)
  rw [scalar?, if_neg ht, if_neg hf, hm, if_neg Bool.false_ne_true, integer?_ofInt h1 h2]

/-! ## floats -/

theorem takeWhile_append_cons {p : Char → Bool} {cs : List Char} (h : ∀ c ∈ cs, p c = true)
    {c : Char} (hc : p c = false) (rest : List Char) : (cs ++ c :: rest).takeWhile p = cs := by
  rw [List.takeWhile_append_of_pos h, List.takeWhile_cons_of_neg (by rw [hc]; decide),
    List.append_nil]

theorem isDigit_ne {c d : Char} (h : c.isDigit = true) (hd : d.isDigit = false) : (c != d) = true := by
  rw [bne_iff_ne]
  rintro rfl
  rw [h] at hd
  cases hd

/-- a whole part and a fraction are read as the decimal they stand for -/
theorem float?_decimal (negative : Bool) (whole : Nat) {fraction : List Char} (hne : fraction ≠ [])
    (hd : ∀ c ∈ fraction, c.isDigit = true) {x : Binary64}
    (hx : Binary64.ofDecimal negative (Digits.value (Digits.ofNat whole ++ fraction))
      (-fraction.length) = x) (hi : x ≠ .infinite false) :
    float? ((if negative then ['-'] else []) ++ (Digits.ofNat whole ++ '.' :: fraction)) = some x := by
  have hw := Digits.isDigit_of_mem_ofNat whole
  have h1 : (Digits.ofNat whole ++ '.' :: fraction).takeWhile (fun c => c != '.' && c != 'e' && c != 'E')
      = Digits.ofNat whole := by
    refine takeWhile_append_cons (fun c hc => ?_) rfl fraction
    rw [isDigit_ne (hw c hc) rfl, isDigit_ne (hw c hc) rfl, isDigit_ne (hw c hc) rfl]
    rfl
  have h2 : ('.' :: fraction).takeWhile (fun c => c != 'e' && c != 'E') = '.' :: fraction := by
    refine List.takeWhile_eq_self_iff.mpr fun c hc => ?_
    rcases List.mem_cons.mp hc with rfl | hc
    · rfl
    · rw [isDigit_ne (hd c hc) rfl, isDigit_ne (hd c hc) rfl]
      rfl
  have hpoint : '.' ∈ Digits.ofNat whole ++ '.' :: fraction :=
    List.mem_append_right _ List.mem_cons_self
  have hinf : Digits.ofNat whole ++ '.' :: fraction ≠ ['i', 'n', 'f'] :=
    (ne_of_not_mem (by simp) hpoint).symm
  have hnan : Digits.ofNat whole ++ '.' :: fraction ≠ ['n', 'a', 'n'] :=
    (ne_of_not_mem (by simp) hpoint).symm
  rw [float?, splitSign_sign]
  dsimp only
  rw [if_neg hinf, if_neg hnan, h1, List.drop_left, h2, List.drop_length]
  simp only [List.isEmpty_cons, Bool.false_and, Bool.false_eq_true, if_false, wholeDigits?_ofNat,
    fractionDigits?, ungroup_of_isDigit hne hd, exponent?, Option.bind_eq_bind, Option.bind_some,
    Int.zero_sub, hx, if_neg hi]

/-- the words for numbers that have no digits -/
theorem scalar?_nan : scalar? ['n', 'a', 'n'] = some (.float (.nan false)) := by
  rfl

theorem scalar?_inf (negative : Bool) :
    scalar? ((if negative then ['-'] else []) ++ ['i', 'n', 'f']) = some (.float (.infinite negative)) := by
  cases negative <;> rfl

theorem mem_decimal (negative : Bool) (whole : Nat) {fraction : List Char}
    (hd : ∀ c ∈ fraction, c.isDigit = true) {c : Char}
    (h : c ∈ (if negative then ['-'] else []) ++ (Digits.ofNat whole ++ '.' :: fraction)) :
    c = '-' ∨ c = '.' ∨ c.isDigit = true := by
  rcases List.mem_append.mp h with h | h
  · cases negative with
    | true => exact .inl (List.mem_singleton.mp h)
    | false => cases h
  rcases List.mem_append.mp h with h | h
  · exact .inr (.inr (Digits.isDigit_of_mem_ofNat _ c h))
  rcases List.mem_cons.mp h with h | h
  · exact .inr (.inl h)
  · exact .inr (.inr (hd c h))

/-- a decimal with a point is no date, no time and no integer, so it is read as a float -/
theorem scalar?_decimal (negative : Bool) (whole : Nat) {fraction : List Char} (hne : fraction ≠ [])
    (hd : ∀ c ∈ fraction, c.isDigit = true) {x : Binary64}
    (hx : Binary64.ofDecimal negative (Digits.value (Digits.ofNat whole ++ fraction))
      (-fraction.length) = x) (hi : x ≠ .infinite false) :
    scalar? ((if negative then ['-'] else []) ++ (Digits.ofNat whole ++ '.' :: fraction))
      = some (.float x) := by
  have hf := float?_decimal negative whole hne hd hx hi
  have hmem := fun c => mem_decimal negative whole hd (c := c)
  have hsign := splitSign_sign negative whole ('.' :: fraction)
  have htail : '-' ∉ ((if negative then ['-'] else []) ++
      (Digits.ofNat whole ++ '.' :: fraction)).tail := by
    have hno : '-' ∉ Digits.ofNat whole ++ '.' :: fraction := by
      intro h
      rcases List.mem_append.mp h with h | h
      · cases Digits.isDigit_of_mem_ofNat _ _ h
      rcases List.mem_cons.mp h with h | h
      · cases h
      · cases hd _ h
    cases negative with
    | true => exact hno
    | false => exact fun h => hno (List.mem_of_mem_tail h)
  have hnot : ∀ c, c ≠ '-' → c ≠ '.' → c.isDigit = false →
      c ∉ (if negative then ['-'] else []) ++ (Digits.ofNat whole ++ '.' :: fraction) := by
    intro c h1 h2 h3 h
    rcases hmem c h with h | h | h
    · exact h1 h
    · exact h2 h
    · rw [h] at h3
      cases h3
  generalize (if negative then ['-'] else []) ++ (Digits.ofNat whole ++ '.' :: fraction) = word at *
  have ht : word ≠ ['t', 'r', 'u', 'e'] :=
    ne_of_not_mem (hnot 't' (by decide) (by decide) rfl) List.mem_cons_self
  have hfalse : word ≠ ['f', 'a', 'l', 's', 'e'] :=
    ne_of_not_mem (hnot 'f' (by decide) (by decide) rfl) List.mem_cons_self
  have hn : wholeDigits? (Digits.ofNat whole ++ '.' :: fraction) = none := by
    rw [wholeDigits?, ungroup_eq_none (List.mem_append_right _ List.mem_cons_self) rfl (by decide)]
  rw [scalar?, if_neg ht, if_neg hfalse,
    isMoment_eq_false (hnot ':' (by decide) (by decide) rfl) htail, if_neg Bool.false_ne_true,
    integer?_eq (hnot 'x' (by decide) (by decide) rfl) (hnot 'o' (by decide) (by decide) rfl)
      (hnot 'b' (by decide) (by decide) rfl), hsign, hn, hf]
  rfl

/-- a finite number is written as a whole part and a fraction that are read as the number -/
theorem writeFloat_finite (negative : Bool) (rank : Fin (2047 * Nat.pow 2 52)) :
    ∃ whole fraction, writeFloat (.finite negative rank)
        = (if negative then ['-'] else []) ++ (Digits.ofNat whole ++ '.' :: fraction) ∧
      fraction ≠ [] ∧ (∀ c ∈ fraction, c.isDigit = true) ∧
      Binary64.ofDecimal negative (Digits.value (Digits.ofNat whole ++ fraction)) (-fraction.length)
        = .finite negative rank := by
  rw [writeFloat]
  by_cases hr : rank.val = 0
  · have hv : Digits.value (['0'] ++ ['0']) = 0 := rfl
    refine ⟨0, ['0'], ?_, List.cons_ne_nil _ _, Digits.isDigit_of_mem_zero, ?_⟩
    · rw [if_pos hr, Digits.ofNat_zero]
      rfl
    · have e : rank = ⟨0, hr ▸ rank.isLt⟩ := Fin.ext hr
      rw [Digits.ofNat_zero, hv, Binary64.ofDecimal, if_pos rfl, e]
      rfl
  · have hpos := Nat.pos_of_ne_zero hr
    obtain ⟨whole, fraction, e, hne, hd, hc⟩ := Binary64.positional_spec
      (Binary64.shortest_pos .up hpos) (Binary64.shortest .up rank.val).2
    refine ⟨whole, fraction, ?_, hne, hd, ?_⟩
    · rw [if_neg hr]
      dsimp only
      rw [e]
    · exact Binary64.ofDecimal_eq negative hpos (by omega)
        (hc _ (Binary64.shortest_contains .up hpos))

/-- **A float is read back** from its text, except that an undefined one loses its sign. -/
theorem scalar?_writeFloat (x : Binary64) : scalar? (writeFloat x) = some (.float x.plain) := by
  cases x with
  | nan negative => exact scalar?_nan
  | infinite negative => exact scalar?_inf negative
  | finite negative rank =>
    obtain ⟨whole, fraction, e, hne, hd, hx⟩ := writeFloat_finite negative rank
    rw [e]
    exact scalar?_decimal negative whole hne hd hx (fun h => by cases h)

/-! ## the characters of a word -/

theorem isWordChar_of_isDigit {c : Char} (h : c.isDigit = true) : isWordChar c = true := by
  rw [isWordChar, Char.isAlphanum, h, Bool.or_true]
  rfl

theorem isWordChar_of_mem_ofInt (n : Int) : ∀ c ∈ Digits.ofInt n, isWordChar c = true := by
  intro c hc
  rcases mem_ofInt hc with rfl | h
  · rfl
  · exact isWordChar_of_isDigit h

theorem isWordChar_of_mem_writeFloat (x : Binary64) : ∀ c ∈ writeFloat x, isWordChar c = true := by
  cases x with
  | nan negative => exact List.all_eq_true.mp rfl
  | infinite negative => cases negative <;> exact List.all_eq_true.mp rfl
  | finite negative rank =>
    obtain ⟨whole, fraction, e, -, hd, -⟩ := writeFloat_finite negative rank
    intro c hc
    rw [e] at hc
    rcases mem_decimal _ _ hd hc with rfl | rfl | h
    · rfl
    · rfl
    · exact isWordChar_of_isDigit h

theorem writeFloat_ne_nil (x : Binary64) : writeFloat x ≠ [] := by
  cases x with
  | nan negative => exact List.cons_ne_nil _ _
  | infinite negative => exact List.append_ne_nil_of_right_ne_nil _ (List.cons_ne_nil _ _)
  | finite negative rank =>
    obtain ⟨whole, fraction, e, -⟩ := writeFloat_finite negative rank
    rw [e]
    exact List.append_ne_nil_of_right_ne_nil _ (List.append_ne_nil_of_left_ne_nil
      (Digits.ofNat_ne_nil whole) _)

theorem ofInt_ne_nil (n : Int) : Digits.ofInt n ≠ [] := by
  rw [ofInt_eq, List.append_nil]
  exact List.append_ne_nil_of_right_ne_nil _ (Digits.ofNat_ne_nil _)

end Toml

end DeskClock
