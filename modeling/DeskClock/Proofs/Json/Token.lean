import DeskClock.Proofs.Json.Text

/-!
# written JSON is cut into tokens

* `Numeral.Valid`, `Numeral.body`   a number as it is written, without its sign;
* `ExponentSpelled`   the ways to write an exponent;
* `numeral?_spelled`  a number is read up to what cannot go on with it, however its exponent is written;
* `Spells`           a text is cut into some tokens, whatever comes behind it;
* `Spells.append`    texts behind one another;
* `spells_text`, `spells_number`, `spells_mark`   the tokens that are written;
* `tokens?_of_spells`   the tokens of a whole text.
-/

namespace DeskClock.Json

open Utf8

/-! ## runs of digits -/

theorem isDigitByte_byte {c : Char} (h : c.isDigit = true) : isDigitByte (byte c) = true := by
  have hc := Char.isDigit_iff_toNat.mp h
  have h0 : '0'.toNat = 48 := rfl
  have h9 : '9'.toNat = 57 := rfl
  rw [isDigitByte, Bool.and_eq_true, decide_eq_true_eq, decide_eq_true_eq, byte,
    UInt8.le_iff_toNat_le, UInt8.le_iff_toNat_le, toNat_byte (by omega)]
  exact ⟨by show 48 ≤ _; omega, by show _ ≤ 57; omega⟩

theorem toNat_lt_of_isDigit {c : Char} (h : c.isDigit = true) : c.toNat < 0x80 := by
  have h9 : c.toNat ≤ 57 := (Char.isDigit_iff_toNat.mp h).2
  omega

/-- no digit comes first -/
def NoDigit (bs : List UInt8) : Prop := ∀ b ∈ bs.head?, isDigitByte b = false

theorem digits_map {run : List Char} (hd : ∀ c ∈ run, c.isDigit = true) {rest : List UInt8}
    (hrest : NoDigit rest) : digits (run.map byte ++ rest) = (run, rest) := by
  induction run with
  | nil =>
    cases rest with
    | nil => rfl
    | cons b rest =>
      rw [List.map_nil, List.nil_append, digits, hrest b rfl]
      rfl
  | cons c run ih =>
    have hc := hd c List.mem_cons_self
    rw [List.map_cons, List.cons_append, digits, isDigitByte_byte hc, if_pos rfl,
      ih fun c hc => hd c (List.mem_cons_of_mem _ hc), ofNat_toNat_byte (toNat_lt_of_isDigit hc)]

theorem digits?_map {run : List Char} (hd : ∀ c ∈ run, c.isDigit = true) (hne : run ≠ [])
    {rest : List UInt8} (hrest : NoDigit rest) :
    digits? (run.map byte ++ rest) = some (run, rest) := by
  rw [digits?, digits_map hd hrest]
  split
  · next e =>
    cases e
    exact absurd rfl hne
  · rfl

/-! ## numbers -/

namespace Numeral

/-- what the grammar asks of the parts of a number -/
structure Valid (n : Numeral) : Prop where
  whole : (∀ c ∈ n.whole, c.isDigit = true) ∧ n.whole ≠ []
  /-- a leading zero stands alone -/
  zero : ∀ c cs, n.whole ≠ '0' :: c :: cs
  fraction : ∀ run, n.fraction = some run → (∀ c ∈ run, c.isDigit = true) ∧ run ≠ []
  exponent : ∀ e, n.exponent = some e → (∀ c ∈ e.2, c.isDigit = true) ∧ e.2 ≠ []

def fractionText (n : Numeral) : List Char := (n.fraction.map fun run => '.' :: run).getD []

def exponentText (n : Numeral) : List Char :=
  (n.exponent.map fun e => 'e' :: (if e.1 then '-' else '+') :: e.2).getD []

/-- a number as it is written behind its sign -/
def body (n : Numeral) : List Char := n.whole ++ n.fractionText ++ n.exponentText

end Numeral

/-- the signs of an exponent, by whether it is negative; a plus may be left out -/
inductive ExponentSign : Bool → List Char → Prop where
  | minus : ExponentSign true ['-']
  | plus : ExponentSign false ['+']
  | absent : ExponentSign false []

/-- the ways to write an exponent -/
inductive ExponentSpelled : Option (Bool × List Char) → List Char → Prop where
  | none : ExponentSpelled none []
  | some {mark : Char} {negative : Bool} {sign run : List Char} (hm : mark = 'e' ∨ mark = 'E')
      (hs : ExponentSign negative sign) :
      ExponentSpelled (some (negative, run)) (mark :: (sign ++ run))

theorem Numeral.spelled_exponentText (n : Numeral) : ExponentSpelled n.exponent n.exponentText := by
  rw [exponentText]
  cases n.exponent with
  | none => exact .none
  | some e =>
    obtain ⟨negative, run⟩ := e
    cases negative with
    | true => exact .some (.inl rfl) .minus
    | false => exact .some (.inl rfl) .plus

/-- what comes first does not go on with a number -/
def Stops (bs : List UInt8) : Prop :=
  ∀ b ∈ bs.head?, isDigitByte b = false ∧ b ≠ byte '.' ∧ b ≠ byte 'e' ∧ b ≠ byte 'E'

variable {n : Numeral} {rest : List UInt8}

theorem exponentSign_append {negative : Bool} {sign run : List Char} (hs : ExponentSign negative sign)
    (hd : ∀ c ∈ run, c.isDigit = true) (hne : run ≠ []) :
    exponentSign ((sign ++ run).map byte ++ rest) = (negative, run.map byte ++ rest) := by
  cases hs with
  | minus => rfl
  | plus => rfl
  | absent =>
    obtain ⟨c, cs, rfl⟩ := List.exists_cons_of_ne_nil hne
    have hdigit := isDigitByte_byte (hd c List.mem_cons_self)
    rw [List.nil_append, List.map_cons, List.cons_append, exponentSign, if_neg, if_neg]
    · intro hplus
      rw [hplus] at hdigit
      cases hdigit
    · intro hminus
      rw [hminus] at hdigit
      cases hdigit

theorem exponent?_spelled (hn : n.Valid) {text : List Char} (ht : ExponentSpelled n.exponent text)
    (hrest : Stops rest) : exponent? (text.map byte ++ rest) = some (n.exponent, rest) := by
  have hexponent := hn.exponent
  generalize n.exponent = exponent at ht hexponent
  cases ht with
  | none =>
    rw [List.map_nil, List.nil_append]
    cases rest with
    | nil => rfl
    | cons b rest =>
      obtain ⟨-, -, h1, h2⟩ := hrest b rfl
      rw [exponent?]
      exact if_neg (not_or.mpr ⟨h1, h2⟩)
  | @some mark negative sign run hm hs =>
    obtain ⟨hd, hne⟩ := hexponent _ rfl
    have hmark : byte mark = byte 'e' ∨ byte mark = byte 'E' := by
      rcases hm with rfl | rfl
      · exact .inl rfl
      · exact .inr rfl
    rw [List.map_cons, List.cons_append, exponent?, if_pos hmark, exponentSign_append hs hd hne]
    show (digits? (run.map byte ++ rest)).map (fun p => (some (negative, p.1), p.2)) = _
    rw [digits?_map hd hne fun b hb => (hrest b hb).1]
    rfl

/-- neither digits nor a point come first -/
def StopsFraction (bs : List UInt8) : Prop := ∀ b ∈ bs.head?, isDigitByte b = false ∧ b ≠ byte '.'

theorem stops_exponent {exponent : Option (Bool × List Char)} {text : List Char}
    (ht : ExponentSpelled exponent text) (hrest : Stops rest) :
    StopsFraction (text.map byte ++ rest) := by
  cases ht with
  | none => exact fun b hb => ⟨(hrest b hb).1, (hrest b hb).2.1⟩
  | some hm =>
    rintro b ⟨⟩
    rcases hm with rfl | rfl
    · exact ⟨rfl, by decide⟩
    · exact ⟨rfl, by decide⟩

theorem fraction?_text (hn : n.Valid) (hrest : StopsFraction rest) :
    fraction? (n.fractionText.map byte ++ rest) = some (n.fraction, rest) := by
  rw [Numeral.fractionText]
  cases hf : n.fraction with
  | none =>
    rw [Option.map_none, Option.getD_none, List.map_nil, List.nil_append]
    cases rest with
    | nil => rfl
    | cons b rest =>
      rw [fraction?]
      exact if_neg (hrest b rfl).2
  | some run =>
    obtain ⟨hd, hne⟩ := hn.fraction run hf
    rw [Option.map_some, Option.getD_some, List.map_cons, List.cons_append, fraction?, if_pos rfl,
      digits?_map hd hne fun b hb => (hrest b hb).1]
    rfl

theorem stops_fraction (hrest : StopsFraction rest) : NoDigit (n.fractionText.map byte ++ rest) := by
  rw [Numeral.fractionText]
  cases n.fraction with
  | none => exact fun b hb => (hrest b hb).1
  | some run =>
    rintro b ⟨⟩
    rfl

theorem whole?_map {run : List Char} (hd : ∀ c ∈ run, c.isDigit = true) (hne : run ≠ [])
    (hzero : ∀ c cs, run ≠ '0' :: c :: cs) {rest : List UInt8} (hrest : NoDigit rest) :
    whole? (run.map byte ++ rest) = some (run, rest) := by
  rw [whole?, digits?_map hd hne hrest]
  split
  · next e =>
    cases e
    exact absurd rfl (hzero _ _)
  · rfl

/-- **A number is read up to what cannot go on with it**, however its exponent is written. -/
theorem numeral?_spelled (hn : n.Valid) {text : List Char} (ht : ExponentSpelled n.exponent text)
    (hrest : Stops rest) :
    numeral? n.negative ((n.whole ++ n.fractionText ++ text).map byte ++ rest)
      = some (.number n, rest) := by
  have hstops := stops_exponent ht hrest
  rw [List.map_append, List.map_append, List.append_assoc, List.append_assoc, numeral?,
    whole?_map hn.whole.1 hn.whole.2 hn.zero (stops_fraction hstops)]
  show (fraction? _ >>= _) = _
  rw [fraction?_text hn hstops]
  show (exponent? _ >>= _) = _
  rw [exponent?_spelled hn ht hrest]
  rfl

theorem numeral?_body (hn : n.Valid) (hrest : Stops rest) :
    numeral? n.negative (n.body.map byte ++ rest) = some (.number n, rest) :=
  numeral?_spelled hn n.spelled_exponentText hrest

/-! ## tokens -/

theorem isBlankByte_digit {c : Char} (h : c.isDigit = true) : isBlankByte (byte c) = false := by
  have hc := Char.isDigit_iff_toNat.mp h
  have h0 : '0'.toNat = 48 := rfl
  have h9 : '9'.toNat = 57 := rfl
  rw [byte]
  generalize c.toNat = n at hc
  obtain ⟨h1, h2⟩ : 48 ≤ n ∧ n ≤ 57 := by omega
  interval_cases n <;> rfl

theorem next?_digit {c : Char} (h : c.isDigit = true) (bs : List UInt8) :
    next? (byte c) bs = numeral? false (byte c :: bs) := by
  have hc := Char.isDigit_iff_toNat.mp h
  have h0 : '0'.toNat = 48 := rfl
  have h9 : '9'.toNat = 57 := rfl
  rw [byte]
  generalize c.toNat = n at hc
  obtain ⟨h1, h2⟩ : 48 ≤ n ∧ n ≤ 57 := by omega
  interval_cases n <;> rfl

/-- Some bytes are cut into some tokens, whatever comes behind them, if it is of a kind. -/
def Spells (behind : List UInt8 → Prop) (bs : List UInt8) (tokens : List Token) : Prop :=
  tokens.length ≤ bs.length ∧ ∀ fuel rest, behind rest →
    tokensWith (tokens.length + fuel) (bs ++ rest) = (tokensWith fuel rest).map (tokens ++ ·)

def Any (_ : List UInt8) : Prop := True

theorem spells_one {behind : List UInt8 → Prop} {b : UInt8} {bs : List UInt8} {token : Token}
    (hb : isBlankByte b = false)
    (h : ∀ rest, behind rest → next? b (bs ++ rest) = some (token, rest)) :
    Spells behind (b :: bs) [token] := by
  refine ⟨Nat.succ_le_succ (Nat.zero_le _), fun fuel rest hrest => ?_⟩
  rw [List.cons_append, List.length_singleton, Nat.add_comm, tokensWith, hb, h rest hrest]
  rfl

theorem Spells.append {behind behind' : List UInt8 → Prop} {bs bs' : List UInt8}
    {tokens tokens' : List Token} (h : Spells behind bs tokens) (h' : Spells behind' bs' tokens')
    (hb : ∀ rest, behind' rest → behind (bs' ++ rest)) :
    Spells behind' (bs ++ bs') (tokens ++ tokens') := by
  refine ⟨by rw [List.length_append, List.length_append]; exact Nat.add_le_add h.1 h'.1, ?_⟩
  intro fuel rest hrest
  rw [List.length_append, Nat.add_assoc, List.append_assoc, h.2 _ _ (hb rest hrest),
    h'.2 _ _ hrest, Option.map_map]
  congr 1
  funext tail
  exact (List.append_assoc tokens tokens' tail).symm

theorem tokens?_of_spells {behind : List UInt8 → Prop} {bs : List UInt8} {tokens : List Token}
    (h : Spells behind bs tokens) (hb : behind []) : tokens? bs = some tokens := by
  obtain ⟨fuel, hfuel⟩ := Nat.le.dest h.1
  have hread := h.2 fuel [] hb
  rw [List.append_nil, hfuel] at hread
  rw [tokens?, hread, tokensWith, Option.map_some, List.append_nil]

theorem spells_text (cs : List Char) : Spells Any (encode (writeText cs)) [.text (rawText cs)] := by
  have hq : '\x22'.toNat < 0x80 := by decide
  have hbytes : encode (writeText cs) = 0x22 :: (rawText cs ++ [0x22]) := by
    rw [writeText, List.cons_append, encode_ascii hq, encode_append, encode_ascii hq]
    rfl
  rw [hbytes]
  refine spells_one rfl fun rest _ => ?_
  rw [List.append_assoc]
  show (quoted? (rawText cs ++ 0x22 :: rest)).map _ = _
  rw [quoted?_rawText]
  rfl

theorem Numeral.Valid.ascii (hn : n.Valid) : ∀ c ∈ n.body, c.toNat < 0x80 := by
  intro c hc
  rw [Numeral.body, List.mem_append, List.mem_append] at hc
  rcases hc with (hc | hc) | hc
  · exact toNat_lt_of_isDigit (hn.whole.1 c hc)
  · rw [Numeral.fractionText] at hc
    cases hf : n.fraction with
    | none =>
      rw [hf] at hc
      cases hc
    | some run =>
      rw [hf] at hc
      rcases List.mem_cons.mp hc with rfl | hc
      · decide
      · exact toNat_lt_of_isDigit ((hn.fraction run hf).1 c hc)
  · rw [Numeral.exponentText] at hc
    cases he : n.exponent with
    | none =>
      rw [he] at hc
      cases hc
    | some e =>
      rw [he] at hc
      rcases List.mem_cons.mp hc with rfl | hc
      · decide
      rcases List.mem_cons.mp hc with rfl | hc
      · split
        · decide
        · decide
      · exact toNat_lt_of_isDigit ((hn.exponent e he).1 c hc)

theorem spells_number (hn : n.Valid) :
    Spells Stops (encode ((if n.negative then ['-'] else []) ++ n.body)) [.number n] := by
  rw [encode_append, encode_digits hn.ascii]
  cases hs : n.negative with
  | true =>
    refine spells_one rfl fun rest hrest => ?_
    show numeral? true _ = _
    rw [← hs]
    exact numeral?_body hn hrest
  | false =>
    obtain ⟨c, cs, hc⟩ := List.exists_cons_of_ne_nil hn.whole.2
    have hdigit : c.isDigit = true := hn.whole.1 c (hc ▸ List.mem_cons_self)
    obtain ⟨tail, hbody⟩ : ∃ tail, n.body = c :: tail := by
      rw [Numeral.body, hc]
      exact ⟨_, rfl⟩
    rw [hbody]
    refine spells_one (isBlankByte_digit hdigit) fun rest hrest => ?_
    rw [next?_digit hdigit]
    have hread := numeral?_body hn hrest
    rw [hbody, hs] at hread
    exact hread

end DeskClock.Json
