import DeskClock.Proofs.Json.Value

/-!
# JSON texts

* `Quotable`         what may stand between quotes;
* `Token.Spelled`    the ways to write a token;
* `Laid`             tokens behind one another, with any blanks before, between and behind them;
* `Value.tokens`     the tokens of a value;
* `Value.Text`       the texts of a value: its tokens, laid in any way.

Nothing here reads: this is what a JSON text is. A number is told from the next token by a mark
between them, since no two numbers are next to each other in a value (`Value.apart_tokens`).
-/

namespace DeskClock.Json

/-! ## tokens -/

/-- What may stand between quotes: bytes that need no escape, a backslash with one letter, and a
backslash with the letter `u` and four digits of base sixteen. -/
inductive Quotable : List UInt8 → Prop where
  | nil : Quotable []
  | plain {b : UInt8} {raw : List UInt8} (hb : IsPlain b) (h : Quotable raw) : Quotable (b :: raw)
  | letter {e : UInt8} {raw : List UInt8} (he : isEscapeByte e = true) (h : Quotable raw) :
      Quotable (0x5C :: e :: raw)
  | digits {h₁ h₂ h₃ h₄ : UInt8} {raw : List UInt8}
      (hd : (isHexByte h₁ && isHexByte h₂ && isHexByte h₃ && isHexByte h₄) = true)
      (h : Quotable raw) : Quotable (0x5C :: byte 'u' :: h₁ :: h₂ :: h₃ :: h₄ :: raw)

namespace Token

/-- the tokens that are always written in the same way -/
def word? : Token → Option (List Char)
  | .openBrace => some ['{']
  | .closeBrace => some ['}']
  | .openBracket => some ['[']
  | .closeBracket => some [']']
  | .colon => some [':']
  | .comma => some [',']
  | .null => some ['n', 'u', 'l', 'l']
  | .boolean true => some ['t', 'r', 'u', 'e']
  | .boolean false => some ['f', 'a', 'l', 's', 'e']
  | .number _ => none
  | .text _ => none

/-- the ways to write a token -/
inductive Spelled : Token → List UInt8 → Prop where
  | word {token : Token} {word : List Char} (h : token.word? = some word) :
      Spelled token (word.map byte)
  | number {n : Numeral} (hn : n.Valid) {exponent : List Char}
      (he : ExponentSpelled n.exponent exponent) :
      Spelled (.number n)
        (((if n.negative then ['-'] else []) ++ (n.whole ++ n.fractionText ++ exponent)).map byte)
  | text {raw : List UInt8} (h : Quotable raw) : Spelled (.text raw) (0x22 :: (raw ++ [0x22]))

def isNumber : Token → Bool
  | .number _ => true
  | _ => false

end Token

/-- Some bytes are some tokens behind one another, with any blanks before, between and behind them. -/
inductive Laid : List Token → List UInt8 → Prop where
  | nil : Laid [] []
  | blank {tokens : List Token} {b : UInt8} {bs : List UInt8} (hb : isBlankByte b = true)
      (h : Laid tokens bs) : Laid tokens (b :: bs)
  | token {token : Token} {tokens : List Token} {spelling bs : List UInt8}
      (hs : token.Spelled spelling) (h : Laid tokens bs) : Laid (token :: tokens) (spelling ++ bs)

/-! ## values -/

/-- some parts with commas between them -/
def separated (parts : List (List Token)) : List Token := [Token.comma].intercalate parts

theorem separated_singleton (part : List Token) : separated [part] = part :=
  List.intercalate_singleton

theorem separated_cons (part : List Token) {parts : List (List Token)} (hne : parts ≠ []) :
    separated (part :: parts) = part ++ .comma :: separated parts := by
  rw [separated, List.intercalate_cons_of_ne_nil hne, List.append_assoc]
  rfl

theorem exists_separated (part : List Token) (parts : List (List Token)) :
    ∃ more, separated (part :: parts) = part ++ more := by
  by_cases hne : parts = []
  · exact ⟨[], by rw [hne, separated_singleton, List.append_nil]⟩
  · exact ⟨_, separated_cons part hne⟩

/-- some parts with commas between them, in brackets or braces -/
def enclosed (first last : Token) (parts : List (List Token)) : List Token :=
  first :: (separated parts ++ [last])

/-- the value of a member is smaller than all the members -/
theorem sizeOf_member_lt {members : List (List UInt8 × Value)} {m : List UInt8 × Value}
    (h : m ∈ members) : sizeOf m.2 < sizeOf members := by
  have hlist := List.sizeOf_lt_of_mem h
  obtain ⟨raw, v⟩ := m
  rw [Prod.mk.sizeOf_spec] at hlist
  show sizeOf v < _
  omega

namespace Value

/-- the tokens of a value -/
def tokens : Value → List Token
  | .null => [.null]
  | .boolean b => [.boolean b]
  | .number n => [.number n]
  | .text raw => [.text raw]
  | .array items => enclosed .openBracket .closeBracket (items.map fun v => v.tokens)
  | .object members =>
    enclosed .openBrace .closeBrace (members.map fun m => memberTokens m.1 m.2.tokens)
decreasing_by
  · decreasing_tactic
  · next hm =>
    rw [Value.object.sizeOf_spec]
    exact Nat.lt_add_left 1 (sizeOf_member_lt hm)

/-- Some bytes are a text of a value. -/
def Text (v : Value) (bs : List UInt8) : Prop := Laid v.tokens bs

end Value

/-! ## numbers stand apart -/

/-- no two numbers are next to each other -/
def Apart (tokens : List Token) : Prop :=
  tokens.IsChain fun t t' => t.isNumber = true → t'.isNumber = false

theorem apart_singleton (token : Token) : Apart [token] := List.isChain_singleton token

/-- a token that is not a number may stand between any others -/
theorem Apart.cons {tokens : List Token} {token : Token} (ht : token.isNumber = false)
    (h : Apart tokens) : Apart (token :: tokens) := by
  refine List.isChain_cons.mpr ⟨fun _ _ hn => ?_, h⟩
  rw [ht] at hn
  cases hn

theorem Apart.append_cons {tokens tokens' : List Token} {token : Token} (h : Apart tokens)
    (ht : token.isNumber = false) (h' : Apart tokens') : Apart (tokens ++ token :: tokens') := by
  refine List.isChain_append.mpr ⟨h, Apart.cons ht h', ?_⟩
  rintro _ _ _ ⟨⟩ _
  exact ht

theorem apart_separated {parts : List (List Token)} (h : ∀ part ∈ parts, Apart part) :
    Apart (separated parts) := by
  induction parts with
  | nil => exact List.isChain_nil
  | cons part parts ih =>
    have hpart := h part List.mem_cons_self
    have hparts := ih fun part hp => h part (List.mem_cons_of_mem _ hp)
    by_cases hne : parts = []
    · rw [hne, separated_singleton]
      exact hpart
    · rw [separated_cons part hne]
      exact hpart.append_cons rfl hparts

theorem apart_enclosed {first last : Token} (hf : first.isNumber = false) (hl : last.isNumber = false)
    {parts : List (List Token)} (h : ∀ part ∈ parts, Apart part) :
    Apart (enclosed first last parts) :=
  .cons hf ((apart_separated h).append_cons hl List.isChain_nil)

/-- **No two numbers are next to each other in a value.** -/
theorem Value.apart_tokens (v : Value) : Apart v.tokens := by
  induction v using Value.tokens.induct with
  | case1 | case2 b | case3 n | case4 raw =>
    rw [tokens]
    exact apart_singleton _
  | case5 items ih =>
    rw [tokens]
    apply apart_enclosed rfl rfl
    intro part hpart
    obtain ⟨v, hv, rfl⟩ := List.mem_map.mp hpart
    exact ih v hv
  | case6 members ih =>
    rw [tokens]
    apply apart_enclosed rfl rfl
    intro part hpart
    obtain ⟨m, hm, rfl⟩ := List.mem_map.mp hpart
    exact .cons rfl (.cons rfl (ih m hm))

end DeskClock.Json
