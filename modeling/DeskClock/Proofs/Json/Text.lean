import DeskClock.Json.Value
import DeskClock.Json.Writer
import DeskClock.Proofs.Text.Digits
import DeskClock.Proofs.Text.Utf8

/-!
# quoted JSON texts are read back

* `Escaped`          what may stand for a character: the character, or one of two kinds of escapes;
* `escaped_escape`   what is written for a character stands for it;
* `quoted?_rawText`  the bytes between the quotes are found;
* `string?_rawText`  they stand for the text.
-/

namespace DeskClock.Json

open Utf8

/-! ## bytes -/

theorem encode_ascii {c : Char} (h : c.toNat < 0x80) (cs : List Char) :
    encode (c :: cs) = byte c :: encode cs := by
  have hc : String.utf8EncodeChar c = [byte c] := by
    unfold String.utf8EncodeChar
    exact if_pos (Nat.le_of_lt_succ h)
  rw [encode_cons, hc]
  rfl

theorem encode_digits {cs : List Char} (h : ∀ c ∈ cs, c.toNat < 0x80) : encode cs = cs.map byte := by
  induction cs with
  | nil => rfl
  | cons c cs ih =>
    rw [encode_ascii (h c List.mem_cons_self), ih fun c hc => h c (List.mem_cons_of_mem _ hc)]
    rfl

theorem ofNat_toNat_byte {c : Char} (h : c.toNat < 0x80) : Char.ofNat (byte c).toNat = c := by
  rw [byte, toNat_byte (by omega)]
  exact Char.ofNat_toNat c

/-- a byte that needs no escape inside quotes -/
def IsPlain (b : UInt8) : Prop := b ≠ 0x22 ∧ b ≠ 0x5C ∧ ¬ b < 0x20

theorem isPlain_ofNat {n : Nat} (h : n < 256) (h0 : 0x20 ≤ n) (h1 : n ≠ 0x22) (h2 : n ≠ 0x5C) :
    IsPlain (UInt8.ofNat n) := by
  refine ⟨?_, ?_, ?_⟩
  · rw [Ne, byte_eq h]
    exact h1
  · rw [Ne, byte_eq h]
    exact h2
  · rw [byte_lt h]
    exact Nat.not_lt.mpr h0

/-- the bytes of a character that is not escaped -/
theorem isPlain_of_mem_encode {c : Char} (h0 : 0x20 ≤ c.toNat) (h1 : c.toNat ≠ 0x22)
    (h2 : c.toNat ≠ 0x5C) : ∀ b ∈ encode [c], IsPlain b := by
  have hc := toNat_char c
  change 0x20 ≤ c.val.toNat at h0
  change c.val.toNat ≠ 0x22 at h1
  change c.val.toNat ≠ 0x5C at h2
  change c.val.toNat < _ ∨ _ < c.val.toNat ∧ c.val.toNat < _ at hc
  rw [encode_cons, show encode [] = [] from rfl, List.append_nil]
  unfold String.utf8EncodeChar
  generalize c.val.toNat = v at h0 h1 h2 hc
  intro b hb
  dsimp only at hb
  split at hb
  · rw [List.mem_singleton.mp hb]
    exact isPlain_ofNat (by omega) (by omega) (by omega) (by omega)
  -- the bytes of longer characters are `0x80` at least
  have htail : ∀ n, IsPlain (UInt8.ofNat (n % 0x40 + 0x80)) := fun n =>
    isPlain_ofNat (by omega) (by omega) (by omega) (by omega)
  have hlead : ∀ n, n < 256 → 0x80 ≤ n → IsPlain (UInt8.ofNat n) := fun n h h' =>
    isPlain_ofNat h (by omega) (by omega) (by omega)
  split at hb
  · simp only [List.mem_cons, List.not_mem_nil, or_false] at hb
    rcases hb with rfl | rfl
    · exact hlead _ (by omega) (by omega)
    · exact htail _
  split at hb
  · simp only [List.mem_cons, List.not_mem_nil, or_false] at hb
    rcases hb with rfl | rfl | rfl
    · exact hlead _ (by omega) (by omega)
    · exact htail _
    · exact htail _
  · simp only [List.mem_cons, List.not_mem_nil, or_false] at hb
    rcases hb with rfl | rfl | rfl | rfl
    · exact hlead _ (by omega) (by omega)
    · exact htail _
    · exact htail _
    · exact htail _

/-! ## escapes -/

/-- What may stand for a character inside quotes: its own bytes, a backslash with one letter, or a
backslash with the letter `u` and four digits of base sixteen. -/
inductive Escaped (c : Char) : List UInt8 → Prop where
  | plain (h : ∀ b ∈ encode [c], IsPlain b) : Escaped c (encode [c])
  | letter (e : UInt8) (h : isEscapeByte e = true) (hu : e ≠ byte 'u')
      (hv : encode [c] = [escapeValue e]) : Escaped c [0x5C, e]
  | digits (h₁ h₂ h₃ h₄ : UInt8)
      (h : (isHexByte h₁ && isHexByte h₂ && isHexByte h₃ && isHexByte h₄) = true)
      (hv : unitValue h₁ h₂ h₃ h₄ = c.toNat) (hc : c.toNat < 0xD800) :
      Escaped c [0x5C, byte 'u', h₁, h₂, h₃, h₄]

/-- **What is written for a character stands for it.** -/
theorem escaped_escape (c : Char) : Escaped c (encode (escape c)) := by
  unfold escape
  split_ifs with h1 h2 h3 h4 h5 h6 h7 h8
  · subst h1
    exact .letter 0x22 rfl (by decide) rfl
  · subst h2
    exact .letter 0x5C rfl (by decide) rfl
  · subst h3
    exact .letter (byte 'b') rfl (by decide) rfl
  · subst h4
    exact .letter (byte 't') rfl (by decide) rfl
  · subst h5
    exact .letter (byte 'n') rfl (by decide) rfl
  · subst h6
    exact .letter (byte 'f') rfl (by decide) rfl
  · subst h7
    exact .letter (byte 'r') rfl (by decide) rfl
  · have hc : c = Char.ofNat c.toNat := (Char.ofNat_toNat c).symm
    generalize c.toNat = n at h8 hc
    subst hc
    interval_cases n <;> exact .digits _ _ _ _ rfl rfl (by decide)
  · refine .plain (isPlain_of_mem_encode (Nat.not_lt.mp h8) (fun e => h1 ?_) (fun e => h2 ?_))
    · exact Char.toNat_inj.mp e
    · exact Char.toNat_inj.mp e

/-! ## finding the closing quote -/

theorem quoted?_plain {bs : List UInt8} (h : ∀ b ∈ bs, IsPlain b) (tail : List UInt8) :
    quoted? (bs ++ tail) = (quoted? tail).map fun p => (bs ++ p.1, p.2) := by
  induction bs with
  | nil => exact Option.map_id'.symm
  | cons b bs ih =>
    obtain ⟨h1, h2, h3⟩ := h b List.mem_cons_self
    rw [List.cons_append, quoted?.eq_def]
    dsimp only
    rw [if_neg h1, if_neg h2, if_neg h3, ih fun b hb => h b (List.mem_cons_of_mem _ hb),
      Option.map_map]
    rfl

theorem quoted?_escaped {c : Char} {bs : List UInt8} (h : Escaped c bs) (tail : List UInt8) :
    quoted? (bs ++ tail) = (quoted? tail).map fun p => (bs ++ p.1, p.2) := by
  have h1 : ¬ (0x5C : UInt8) = 0x22 := by decide
  cases h with
  | plain h => exact quoted?_plain h tail
  | letter e h =>
    rw [List.cons_append, List.cons_append, quoted?.eq_def]
    dsimp only
    rw [if_neg h1, if_pos rfl, if_pos h]
    rfl
  | digits h₁ h₂ h₃ h₄ h =>
    have hu : ¬ isEscapeByte (byte 'u') = true := by decide
    simp only [List.cons_append]
    rw [quoted?.eq_def]
    dsimp only
    rw [if_neg h1, if_pos rfl, if_neg hu, if_pos rfl, if_pos h]
    rfl

/-- the bytes between the quotes of a text -/
def rawText (cs : List Char) : List UInt8 := encode (cs.flatMap escape)

theorem rawText_cons (c : Char) (cs : List Char) :
    rawText (c :: cs) = encode (escape c) ++ rawText cs := by
  rw [rawText, List.flatMap_cons, encode_append]
  rfl

/-- **The bytes between the quotes are found.** -/
theorem quoted?_rawText (cs : List Char) (rest : List UInt8) :
    quoted? (rawText cs ++ 0x22 :: rest) = some (rawText cs, rest) := by
  induction cs with
  | nil =>
    show quoted? (0x22 :: rest) = some ([], rest)
    rw [quoted?.eq_def]
    exact if_pos rfl
  | cons c cs ih =>
    rw [rawText_cons, List.append_assoc, quoted?_escaped (escaped_escape c), ih]
    rfl

/-! ## what the bytes stand for -/

theorem unescape?_plain {bs : List UInt8} (h : ∀ b ∈ bs, IsPlain b) (tail : List UInt8) :
    unescape? (bs ++ tail) = (unescape? tail).map (bs ++ ·) := by
  induction bs with
  | nil => exact Option.map_id'.symm
  | cons b bs ih =>
    rw [List.cons_append, unescape?.eq_def]
    dsimp only
    rw [if_neg (h b List.mem_cons_self).2.1, ih fun b hb => h b (List.mem_cons_of_mem _ hb),
      Option.map_map]
    rfl

theorem unescape?_escaped {c : Char} {bs : List UInt8} (h : Escaped c bs) (tail : List UInt8) :
    unescape? (bs ++ tail) = (unescape? tail).map (encode [c] ++ ·) := by
  cases h with
  | plain h => exact unescape?_plain h tail
  | letter e h hu hv =>
    rw [List.cons_append, List.cons_append, unescape?.eq_def]
    dsimp only
    rw [if_pos rfl, if_neg hu, hv]
    rfl
  | digits h₁ h₂ h₃ h₄ h hv hc =>
    have hchar : encodeScalar c.toNat = encode [c] := by rw [encodeScalar, Char.ofNat_toNat]
    simp only [List.cons_append]
    rw [unescape?.eq_def]
    dsimp only
    rw [if_pos rfl, if_pos rfl, hv, if_neg (by omega), if_neg (by omega), hchar]
    rfl

theorem unescape?_rawText (cs : List Char) : unescape? (rawText cs) = some (encode cs) := by
  induction cs with
  | nil => rfl
  | cons c cs ih =>
    rw [rawText_cons, unescape?_escaped (escaped_escape c), ih]
    exact congrArg some (encode_append [c] cs).symm

/-- **The bytes between the quotes stand for the text.** -/
theorem string?_rawText (s : String) : string? (rawText s.toList) = some s := by
  rw [string?, text?, unescape?_rawText, Option.bind_some, decode?_encode, Option.map_some,
    String.ofList_toList]

end DeskClock.Json
