import DeskClock.Proofs.Json.Grammar

/-!
# texts are cut into the tokens that they are

* `next?_sound`      a token that is found is written where it is found;
* `tokens?_cons`     how a text is cut, without a bound on the steps;
* `tokens?_sound`    a text that is cut into tokens is these tokens, laid;
* `tokens?_laid`     tokens that are laid are cut off, whatever comes behind them.
-/

namespace DeskClock.Json

variable {bs rest : List UInt8}

/-! ## what is found is written there -/

theorem isDigit_of_isDigitByte {b : UInt8} (h : isDigitByte b = true) :
    (Char.ofNat b.toNat).isDigit = true ∧ byte (Char.ofNat b.toNat) = b := by
  rw [isDigitByte, Bool.and_eq_true, decide_eq_true_eq, decide_eq_true_eq, UInt8.le_iff_toNat_le,
    UInt8.le_iff_toNat_le] at h
  have hlow : 48 ≤ b.toNat := h.1
  have hhigh : b.toNat ≤ 57 := h.2
  have hchar : (Char.ofNat b.toNat).toNat = b.toNat := Digits.toNat_ofNat _ (by omega)
  constructor
  · rw [Char.isDigit_iff_toNat, hchar]
    exact ⟨hlow, hhigh⟩
  · rw [byte, hchar, UInt8.ofNat_toNat]

theorem digits_sound {run : List Char} (h : digits bs = (run, rest)) :
    (∀ c ∈ run, c.isDigit = true) ∧ bs = run.map byte ++ rest := by
  fun_induction digits bs generalizing run rest with
  | case1 =>
    cases h
    exact ⟨fun c hc => absurd hc List.not_mem_nil, rfl⟩
  | case2 b bs hb run' rest' hread ih =>
    obtain ⟨hdigit, hbyte⟩ := isDigit_of_isDigitByte hb
    obtain ⟨hd, hbs⟩ := ih hread
    cases h
    refine ⟨List.forall_mem_cons.mpr ⟨hdigit, hd⟩, ?_⟩
    rw [List.map_cons, hbyte, List.cons_append, ← hbs]
  | case3 b bs hb =>
    cases h
    exact ⟨fun c hc => absurd hc List.not_mem_nil, rfl⟩

theorem digits?_sound {run : List Char} (h : digits? bs = some (run, rest)) :
    ((∀ c ∈ run, c.isDigit = true) ∧ run ≠ []) ∧ bs = run.map byte ++ rest := by
  rw [digits?] at h
  split at h
  · cases h
  · next hne =>
    have hread : digits bs = (run, rest) := Option.some.inj h
    obtain ⟨hd, hbs⟩ := digits_sound hread
    refine ⟨⟨hd, ?_⟩, hbs⟩
    rintro rfl
    exact hne rest hread

theorem whole?_sound {run : List Char} (h : whole? bs = some (run, rest)) :
    ((∀ c ∈ run, c.isDigit = true) ∧ run ≠ []) ∧ (∀ c cs, run ≠ '0' :: c :: cs) ∧
      bs = run.map byte ++ rest := by
  rw [whole?] at h
  split at h
  · cases h
  · next hzero =>
    obtain ⟨hrun, hbs⟩ := digits?_sound h
    refine ⟨hrun, ?_, hbs⟩
    rintro c cs rfl
    exact hzero c cs rest h

theorem fraction?_sound {fraction : Option (List Char)} (h : fraction? bs = some (fraction, rest)) :
    (∀ run, fraction = some run → (∀ c ∈ run, c.isDigit = true) ∧ run ≠ []) ∧
      bs = ((fraction.map fun run => '.' :: run).getD []).map byte ++ rest := by
  cases bs with
  | nil =>
    cases h
    exact ⟨fun _ e => (by cases e), rfl⟩
  | cons b bs =>
    rw [fraction?] at h
    split at h
    · next hb =>
      obtain ⟨⟨run, rest⟩, hread, hpair⟩ := Option.map_eq_some_iff.mp h
      cases hpair
      obtain ⟨hrun, rfl⟩ := digits?_sound hread
      rw [hb]
      exact ⟨fun _ e => Option.some.inj e ▸ hrun, rfl⟩
    · cases h
      exact ⟨fun _ e => (by cases e), rfl⟩

theorem exponentSign_sound {negative : Bool} (h : exponentSign bs = (negative, rest)) :
    ∃ sign, ExponentSign negative sign ∧ bs = sign.map byte ++ rest := by
  cases bs with
  | nil =>
    cases h
    exact ⟨_, .absent, rfl⟩
  | cons b bs =>
    rw [exponentSign] at h
    split_ifs at h with hminus hplus
    · cases h
      rw [hminus]
      exact ⟨_, .minus, rfl⟩
    · cases h
      rw [hplus]
      exact ⟨_, .plus, rfl⟩
    · cases h
      exact ⟨_, .absent, rfl⟩

theorem exponent?_sound {exponent : Option (Bool × List Char)}
    (h : exponent? bs = some (exponent, rest)) :
    (∀ e, exponent = some e → (∀ c ∈ e.2, c.isDigit = true) ∧ e.2 ≠ []) ∧
      ∃ text, ExponentSpelled exponent text ∧ bs = text.map byte ++ rest := by
  cases bs with
  | nil =>
    cases h
    exact ⟨fun _ e => (by cases e), _, .none, rfl⟩
  | cons b bs =>
    rw [exponent?] at h
    split at h
    · next hb =>
      obtain ⟨mark, hm, rfl⟩ : ∃ mark, (mark = 'e' ∨ mark = 'E') ∧ b = byte mark := by
        rcases hb with rfl | rfl
        · exact ⟨_, .inl rfl, rfl⟩
        · exact ⟨_, .inr rfl, rfl⟩
      obtain ⟨sign, hs, hbs⟩ := exponentSign_sound (Eq.refl (exponentSign bs))
      obtain ⟨⟨run, rest⟩, hread, hpair⟩ := Option.map_eq_some_iff.mp h
      cases hpair
      obtain ⟨hrun, hbehind⟩ := digits?_sound hread
      refine ⟨fun _ e => Option.some.inj e ▸ hrun, _, .some hm hs, ?_⟩
      rw [hbs, hbehind, List.map_cons, List.map_append, List.cons_append, List.append_assoc]
    · cases h
      exact ⟨fun _ e => (by cases e), _, .none, rfl⟩

/-- **A number that is found is written where it is found**, behind its sign. -/
theorem numeral?_sound {negative : Bool} {token : Token}
    (h : numeral? negative bs = some (token, rest)) :
    ∃ n exponent, token = .number n ∧ n.negative = negative ∧ n.Valid ∧
      ExponentSpelled n.exponent exponent ∧
      bs = (n.whole ++ n.fractionText ++ exponent).map byte ++ rest := by
  obtain ⟨⟨whole, behind⟩, hwhole, h⟩ := Option.bind_eq_some_iff.mp h
  obtain ⟨⟨fraction, behind'⟩, hfraction, h⟩ := Option.bind_eq_some_iff.mp h
  obtain ⟨⟨exponent, behind''⟩, hexponent, h⟩ := Option.bind_eq_some_iff.mp h
  cases h
  obtain ⟨hw, hzero, rfl⟩ := whole?_sound hwhole
  obtain ⟨hf, rfl⟩ := fraction?_sound hfraction
  obtain ⟨he, text, htext, rfl⟩ := exponent?_sound hexponent
  refine ⟨⟨negative, whole, fraction, exponent⟩, text, rfl, rfl, ⟨hw, hzero, hf, he⟩, htext, ?_⟩
  rw [List.map_append, List.map_append, List.append_assoc, List.append_assoc]
  rfl

theorem behind?_sound {word : List Char} (h : behind? word bs = some rest) :
    bs = word.map byte ++ rest := by
  fun_induction behind? word bs with
  | case1 bs => exact Option.some.inj h
  | case2 => cases h
  | case3 c word bs ih => rw [ih h, List.map_cons, List.cons_append]
  | case4 => cases h

theorem quoted?_sound {raw : List UInt8} (h : quoted? bs = some (raw, rest)) :
    Quotable raw ∧ bs = raw ++ 0x22 :: rest := by
  fun_induction quoted? bs generalizing raw with
  | case1 => cases h
  | case2 bs =>
    cases h
    exact ⟨.nil, rfl⟩
  | case3 => cases h
  | case4 e bs he _ ih =>
    obtain ⟨⟨raw, rest⟩, hread, hpair⟩ := Option.map_eq_some_iff.mp h
    cases hpair
    obtain ⟨hraw, rfl⟩ := ih hread
    exact ⟨.letter he hraw, rfl⟩
  | case5 h₁ h₂ h₃ h₄ bs hd _ _ ih =>
    obtain ⟨⟨raw, rest⟩, hread, hpair⟩ := Option.map_eq_some_iff.mp h
    cases hpair
    obtain ⟨hraw, rfl⟩ := ih hread
    exact ⟨.digits hd hraw, rfl⟩
  | case6 => cases h
  | case7 => cases h
  | case8 => cases h
  | case9 => cases h
  | case10 b bs h1 h2 h3 ih =>
    obtain ⟨⟨raw, rest⟩, hread, hpair⟩ := Option.map_eq_some_iff.mp h
    cases hpair
    obtain ⟨hraw, rfl⟩ := ih hread
    exact ⟨.plain ⟨h1, h2, h3⟩ hraw, rfl⟩

theorem mark_sound {b : UInt8} {c : Char} {found token : Token} (hb : b = byte c)
    (h : some (found, bs) = some (token, rest)) (hword : found.word? = some [c]) :
    ∃ spelling, token.Spelled (b :: spelling) ∧ bs = spelling ++ rest := by
  cases h
  subst hb
  exact ⟨[], .word hword, rfl⟩

theorem word_sound {b : UInt8} {c : Char} {cs : List Char} {found token : Token} (hb : b = byte c)
    (h : (behind? cs bs).map (found, ·) = some (token, rest)) (hword : found.word? = some (c :: cs)) :
    ∃ spelling, token.Spelled (b :: spelling) ∧ bs = spelling ++ rest := by
  obtain ⟨behind, hread, hpair⟩ := Option.map_eq_some_iff.mp h
  cases hpair
  subst hb
  exact ⟨cs.map byte, .word hword, behind?_sound hread⟩

/-- **A token that is found is written where it is found.** -/
theorem next?_sound {b : UInt8} {token : Token} (h : next? b bs = some (token, rest)) :
    ∃ spelling, token.Spelled (b :: spelling) ∧ bs = spelling ++ rest := by
  rw [next?] at h
  obtain ⟨hb, h⟩ | ⟨-, h⟩ := ite_eq_iff.mp h
  · exact mark_sound hb h rfl
  obtain ⟨hb, h⟩ | ⟨-, h⟩ := ite_eq_iff.mp h
  · exact mark_sound hb h rfl
  obtain ⟨hb, h⟩ | ⟨-, h⟩ := ite_eq_iff.mp h
  · exact mark_sound hb h rfl
  obtain ⟨hb, h⟩ | ⟨-, h⟩ := ite_eq_iff.mp h
  · exact mark_sound hb h rfl
  obtain ⟨hb, h⟩ | ⟨-, h⟩ := ite_eq_iff.mp h
  · exact mark_sound hb h rfl
  obtain ⟨hb, h⟩ | ⟨-, h⟩ := ite_eq_iff.mp h
  · exact mark_sound hb h rfl
  obtain ⟨hb, h⟩ | ⟨-, h⟩ := ite_eq_iff.mp h
  · exact word_sound hb h rfl
  obtain ⟨hb, h⟩ | ⟨-, h⟩ := ite_eq_iff.mp h
  · exact word_sound hb h rfl
  obtain ⟨hb, h⟩ | ⟨-, h⟩ := ite_eq_iff.mp h
  · exact word_sound hb h rfl
  obtain ⟨rfl, h⟩ | ⟨-, h⟩ := ite_eq_iff.mp h
  · obtain ⟨⟨raw, rest⟩, hread, hpair⟩ := Option.map_eq_some_iff.mp h
    cases hpair
    obtain ⟨hraw, rfl⟩ := quoted?_sound hread
    exact ⟨raw ++ [0x22], .text hraw, (List.append_assoc raw [0x22] rest).symm⟩
  obtain ⟨rfl, h⟩ | ⟨-, h⟩ := ite_eq_iff.mp h
  · obtain ⟨n, exponent, rfl, hnegative, hn, he, rfl⟩ := numeral?_sound h
    have hs := Token.Spelled.number hn he
    rw [hnegative, if_pos rfl] at hs
    exact ⟨_, hs, rfl⟩
  · obtain ⟨n, exponent, rfl, hnegative, hn, he, hbs⟩ := numeral?_sound h
    have hs := Token.Spelled.number hn he
    obtain ⟨c, cs, hc⟩ := List.exists_cons_of_ne_nil hn.whole.2
    rw [hnegative, if_neg Bool.false_ne_true, List.nil_append, hc] at hs
    rw [hc] at hbs
    obtain ⟨rfl, rfl⟩ := List.cons.inj hbs
    exact ⟨_, hs, rfl⟩

/-! ## cutting without a bound -/

theorem next?_length_le {b : UInt8} {token : Token} (h : next? b bs = some (token, rest)) :
    rest.length ≤ bs.length := by
  obtain ⟨spelling, -, rfl⟩ := next?_sound h
  rw [List.length_append]
  exact Nat.le_add_left _ _

/-- more steps than there are bytes make no difference -/
theorem tokensWith_congr {fuel fuel' : Nat} (h : bs.length ≤ fuel) (h' : bs.length ≤ fuel') :
    tokensWith fuel bs = tokensWith fuel' bs := by
  fun_induction tokensWith fuel bs generalizing fuel' with
  | case1 fuel => rw [tokensWith]
  | case2 bs hne => exact absurd (List.length_eq_zero_iff.mp (Nat.le_zero.mp h)) hne
  | case3 fuel b bs hb ih =>
    obtain ⟨fuel', rfl⟩ := Nat.exists_eq_succ_of_ne_zero (Nat.ne_zero_of_lt h')
    rw [tokensWith, if_pos hb]
    exact ih (Nat.le_of_succ_le_succ h) (Nat.le_of_succ_le_succ h')
  | case4 fuel b bs hb hnext =>
    obtain ⟨fuel', rfl⟩ := Nat.exists_eq_succ_of_ne_zero (Nat.ne_zero_of_lt h')
    rw [tokensWith, if_neg hb, hnext]
  | case5 fuel b bs hb token rest hnext ih =>
    obtain ⟨fuel', rfl⟩ := Nat.exists_eq_succ_of_ne_zero (Nat.ne_zero_of_lt h')
    have hle := next?_length_le hnext
    rw [tokensWith, if_neg hb, hnext]
    dsimp only
    rw [ih (hle.trans (Nat.le_of_succ_le_succ h)) (hle.trans (Nat.le_of_succ_le_succ h'))]

theorem tokens?_blank {b : UInt8} (hb : isBlankByte b = true) : tokens? (b :: bs) = tokens? bs := by
  show tokensWith (bs.length + 1) (b :: bs) = tokensWith bs.length bs
  rw [tokensWith, if_pos hb]

/-- **A text is cut behind its first token**, whatever its length. -/
theorem tokens?_cons {b : UInt8} (hb : isBlankByte b = false) {token : Token}
    (h : next? b bs = some (token, rest)) : tokens? (b :: bs) = (tokens? rest).map (token :: ·) := by
  show tokensWith (bs.length + 1) (b :: bs) = _
  rw [tokensWith, if_neg (Bool.eq_false_iff.mp hb), h]
  dsimp only
  rw [tokens?, tokensWith_congr (next?_length_le h) le_rfl]

/-! ## soundness -/

/-- **A text that is cut into tokens is these tokens, laid.** -/
theorem tokens?_sound {tokens : List Token} (h : tokens? bs = some tokens) : Laid tokens bs := by
  rw [tokens?] at h
  generalize bs.length = fuel at h
  fun_induction tokensWith fuel bs generalizing tokens with
  | case1 =>
    cases h
    exact .nil
  | case2 => cases h
  | case3 fuel b bs hb ih => exact .blank hb (ih h)
  | case4 => cases h
  | case5 fuel b bs hb token rest hnext ih =>
    obtain ⟨tokens, hread, rfl⟩ := Option.map_eq_some_iff.mp h
    obtain ⟨spelling, hs, rfl⟩ := next?_sound hnext
    exact .token hs (ih hread)

/-! ## tokens that are laid -/

theorem quoted?_quotable {raw : List UInt8} (h : Quotable raw) (rest : List UInt8) :
    quoted? (raw ++ 0x22 :: rest) = some (raw, rest) := by
  have hslash : ¬ (0x5C : UInt8) = 0x22 := by decide
  induction h with
  | nil =>
    rw [List.nil_append, quoted?.eq_def]
    exact if_pos rfl
  | plain hb h ih =>
    rw [List.cons_append, quoted?.eq_def]
    dsimp only
    rw [if_neg hb.1, if_neg hb.2.1, if_neg hb.2.2, ih]
    rfl
  | letter he h ih =>
    rw [List.cons_append, List.cons_append, quoted?.eq_def]
    dsimp only
    rw [if_neg hslash, if_pos rfl, if_pos he, ih]
    rfl
  | digits hd h ih =>
    have hu : ¬ isEscapeByte (byte 'u') = true := by decide
    simp only [List.cons_append]
    rw [quoted?.eq_def]
    dsimp only
    rw [if_neg hslash, if_pos rfl, if_neg hu, if_pos rfl, if_pos hd, ih]
    rfl

/-- what comes of a token that is always written in the same way -/
theorem next?_word {token : Token} {word : List Char} (h : token.word? = some word)
    (rest : List UInt8) : ∃ b tail, word.map byte = b :: tail ∧ isBlankByte b = false ∧
      next? b (tail ++ rest) = some (token, rest) ∧ Stops [b] := by
  have stops {b : UInt8} (h : isDigitByte b = false ∧ b ≠ byte '.' ∧ b ≠ byte 'e' ∧ b ≠ byte 'E') :
      Stops [b] := by
    rintro _ ⟨⟩
    exact h
  cases token with
  | number n => cases h
  | text raw => cases h
  | boolean b =>
    cases b with
    | true =>
      cases h
      exact ⟨_, _, rfl, rfl, rfl, stops ⟨rfl, by decide, by decide, by decide⟩⟩
    | false =>
      cases h
      exact ⟨_, _, rfl, rfl, rfl, stops ⟨rfl, by decide, by decide, by decide⟩⟩
  | _ =>
    cases h
    exact ⟨_, _, rfl, rfl, rfl, stops ⟨rfl, by decide, by decide, by decide⟩⟩

/-- **A token is found where it is written**, if a number is not gone on with behind it. -/
theorem next?_spelled {token : Token} {spelling : List UInt8} (hs : token.Spelled spelling)
    (hrest : token.isNumber = true → Stops rest) :
    ∃ b tail, spelling = b :: tail ∧ isBlankByte b = false ∧
      next? b (tail ++ rest) = some (token, rest) := by
  cases hs with
  | word hword =>
    obtain ⟨b, tail, hspelling, hb, hread, -⟩ := next?_word hword rest
    exact ⟨b, tail, hspelling, hb, hread⟩
  | text hraw =>
    refine ⟨_, _, rfl, rfl, ?_⟩
    rw [List.append_assoc]
    show (quoted? (_ ++ 0x22 :: rest)).map _ = _
    rw [quoted?_quotable hraw]
    rfl
  | @number n hn exponent he =>
    have hread := numeral?_spelled hn he (hrest rfl)
    cases hs : n.negative with
    | true =>
      refine ⟨_, _, rfl, rfl, ?_⟩
      show numeral? true _ = _
      rw [← hs]
      exact hread
    | false =>
      obtain ⟨c, cs, hc⟩ := List.exists_cons_of_ne_nil hn.whole.2
      have hdigit : c.isDigit = true := hn.whole.1 c (hc ▸ List.mem_cons_self)
      rw [hs, hc] at hread
      rw [if_neg Bool.false_ne_true, List.nil_append, hc]
      refine ⟨_, _, rfl, isBlankByte_digit hdigit, ?_⟩
      rw [next?_digit hdigit]
      exact hread

theorem stops_spelled {token : Token} {spelling : List UInt8} (hs : token.Spelled spelling)
    (ht : token.isNumber = false) (rest : List UInt8) : Stops (spelling ++ rest) := by
  cases hs with
  | number => cases ht
  | text =>
    rintro b ⟨⟩
    exact ⟨rfl, by decide, by decide, by decide⟩
  | word hword =>
    obtain ⟨b, tail, hspelling, -, -, hstops⟩ := next?_word hword rest
    rw [hspelling]
    rintro _ ⟨⟩
    exact hstops b rfl

theorem stops_blank {b : UInt8} (hb : isBlankByte b = true) (bs : List UInt8) : Stops (b :: bs) := by
  rintro _ ⟨⟩
  simp only [isBlankByte, Bool.or_eq_true, decide_eq_true_eq] at hb
  rcases hb with ((rfl | rfl) | rfl) | rfl
  · exact ⟨rfl, by decide, by decide, by decide⟩
  · exact ⟨rfl, by decide, by decide, by decide⟩
  · exact ⟨rfl, by decide, by decide, by decide⟩
  · exact ⟨rfl, by decide, by decide, by decide⟩

/-- what is laid behind a number does not go on with it -/
theorem stops_laid {tokens : List Token} (h : Laid tokens bs)
    (hfirst : ∀ token ∈ tokens.head?, token.isNumber = false) (hrest : tokens = [] → Stops rest) :
    Stops (bs ++ rest) := by
  cases h with
  | nil => exact hrest rfl
  | blank hb => exact stops_blank hb _
  | token hs =>
    rw [List.append_assoc]
    exact stops_spelled hs (hfirst _ rfl) _

/-- **Tokens that are laid are cut off**, whatever comes behind them, if no two numbers are next to
each other and none is gone on with behind them. -/
theorem tokens?_laid {tokens : List Token} (h : Laid tokens bs) (ha : Apart tokens)
    (hrest : ∀ token ∈ tokens.getLast?, token.isNumber = true → Stops rest) :
    tokens? (bs ++ rest) = (tokens? rest).map (tokens ++ ·) := by
  induction h with
  | nil => exact Option.map_id'.symm
  | blank hb h ih =>
    rw [List.cons_append, tokens?_blank hb]
    exact ih ha hrest
  | @token token tokens spelling bs hs h ih =>
    obtain ⟨hnext, ha'⟩ := List.isChain_cons.mp ha
    -- only a number hangs on what is behind it: the next token, or else `rest`
    have hstops : token.isNumber = true → Stops (bs ++ rest) := by
      intro ht
      refine stops_laid h (fun token' hfirst => hnext token' hfirst ht) ?_
      rintro rfl
      exact hrest token rfl ht
    obtain ⟨b, tail, rfl, hb, hread⟩ := next?_spelled hs hstops
    rw [List.append_assoc, List.cons_append, tokens?_cons hb hread, ih ha', Option.map_map]
    · rfl
    · intro token' hlast
      apply hrest
      rw [List.getLast?_cons, Option.mem_def.mp hlast]
      rfl

end DeskClock.Json
