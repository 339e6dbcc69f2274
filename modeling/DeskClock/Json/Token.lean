import DeskClock.Text.Digits

/-!
# the tokens of a JSON text

* `Json.Numeral`     a number as it is written;
* `Json.Token`       a mark, a word, a number, or a quoted text with its escapes as they stand;
* `Json.next?`       the token at the start of a text;
* `Json.tokens?`     the tokens of a whole text, without the blanks between them.

A quoted text is checked for the form of its escapes only: which characters they stand for, and
whether the bytes between them are valid, matters only where the text is used.
-/

namespace DeskClock.Json

structure Numeral where
  negative : Bool
  whole : List Char
  fraction : Option (List Char)
  /-- whether the exponent is negative, and its digits -/
  exponent : Option (Bool × List Char)
deriving DecidableEq

inductive Token where
  | openBrace | closeBrace | openBracket | closeBracket | colon | comma | null
  | boolean (b : Bool)
  | number (n : Numeral)
  | text (raw : List UInt8)
deriving DecidableEq

def byte (c : Char) : UInt8 := UInt8.ofNat c.toNat

def isBlankByte (b : UInt8) : Bool := b = 0x20 || b = 0x0A || b = 0x0D || b = 0x09

def isDigitByte (b : UInt8) : Bool := 0x30 ≤ b && b ≤ 0x39

def isHexByte (b : UInt8) : Bool := (Digits.hexValue? (Char.ofNat b.toNat)).isSome

/-- the digits at the start of a text, and the rest -/
def digits : List UInt8 → List Char × List UInt8
  | [] => ([], [])
  | b :: bs =>
    if isDigitByte b then
      let (run, rest) := digits bs
      (Char.ofNat b.toNat :: run, rest)
    else ([], b :: bs)

/-- digits, at least one -/
def digits? (bs : List UInt8) : Option (List Char × List UInt8) :=
  match digits bs with
  | ([], _) => none
  | read => some read

/-- the digits of a whole number, which starts with a zero only if it is zero -/
def whole? (bs : List UInt8) : Option (List Char × List UInt8) :=
  match digits? bs with
  | some ('0' :: _ :: _, _) => none
  | read => read

def fraction? : List UInt8 → Option (Option (List Char) × List UInt8)
  | b :: bs =>
    if b = byte '.' then (digits? bs).map fun (run, rest) => (some run, rest)
    else some (none, b :: bs)
  | [] => some (none, [])

/-- whether an exponent is negative, and the text behind its sign -/
def exponentSign : List UInt8 → Bool × List UInt8
  | b :: bs =>
    if b = byte '-' then (true, bs) else if b = byte '+' then (false, bs) else (false, b :: bs)
  | [] => (false, [])

def exponent? : List UInt8 → Option (Option (Bool × List Char) × List UInt8)
  | b :: bs =>
    if b = byte 'e' ∨ b = byte 'E' then
      let (negative, bs) := exponentSign bs
      (digits? bs).map fun (run, rest) => (some (negative, run), rest)
    else some (none, b :: bs)
  | [] => some (none, [])

/-- a number behind its sign -/
def numeral? (negative : Bool) (bs : List UInt8) : Option (Token × List UInt8) := do
  let (whole, bs) ← whole? bs
  let (fraction, bs) ← fraction? bs
  let (exponent, bs) ← exponent? bs
  return (.number ⟨negative, whole, fraction, exponent⟩, bs)

/-- whether a byte may follow a backslash alone -/
def isEscapeByte (b : UInt8) : Bool :=
  b = 0x22 || b = 0x5C || b = byte '/' || b = byte 'b' || b = byte 'f' || b = byte 'n'
    || b = byte 'r' || b = byte 't'

/-- the bytes up to the closing quote, and what follows it -/
def quoted? : List UInt8 → Option (List UInt8 × List UInt8)
  | [] => none
  | b :: bs =>
    if b = 0x22 then some ([], bs)
    else if b = 0x5C then
      match bs with
      | [] => none
      | e :: rest =>
        if isEscapeByte e then (quoted? rest).map fun (raw, rest) => (b :: e :: raw, rest)
        else if e = byte 'u' then
          match rest with
          | h₁ :: h₂ :: h₃ :: h₄ :: rest =>
            if isHexByte h₁ && isHexByte h₂ && isHexByte h₃ && isHexByte h₄ then
              (quoted? rest).map fun (raw, rest) => (b :: e :: h₁ :: h₂ :: h₃ :: h₄ :: raw, rest)
            else none
          | _ => none
        else none
    else if b < 0x20 then none
    else (quoted? bs).map fun (raw, rest) => (b :: raw, rest)

/-- the text behind a word, if it starts with the word -/
def behind? : (word : List Char) → List UInt8 → Option (List UInt8)
  | [], bs => some bs
  | _ :: _, [] => none
  | c :: word, b :: bs => if b = byte c then behind? word bs else none

/-- the token that starts with a byte -/
def next? (b : UInt8) (bs : List UInt8) : Option (Token × List UInt8) :=
  if b = byte '{' then some (.openBrace, bs)
  else if b = byte '}' then some (.closeBrace, bs)
  else if b = byte '[' then some (.openBracket, bs)
  else if b = byte ']' then some (.closeBracket, bs)
  else if b = byte ':' then some (.colon, bs)
  else if b = byte ',' then some (.comma, bs)
  else if b = byte 'n' then (behind? ['u', 'l', 'l'] bs).map (.null, ·)
  else if b = byte 't' then (behind? ['r', 'u', 'e'] bs).map (.boolean true, ·)
  else if b = byte 'f' then (behind? ['a', 'l', 's', 'e'] bs).map (.boolean false, ·)
  else if b = 0x22 then (quoted? bs).map fun (raw, rest) => (.text raw, rest)
  else if b = byte '-' then numeral? true bs
  else numeral? false (b :: bs)

/-- the tokens of a text, each of which takes a byte at least -/
def tokensWith : Nat → List UInt8 → Option (List Token)
  | _, [] => some []
  | 0, _ => none
  | fuel + 1, b :: bs =>
    if isBlankByte b then tokensWith fuel bs
    else
      match next? b bs with
      | none => none
      | some (token, rest) => (tokensWith fuel rest).map (token :: ·)

def tokens? (bs : List UInt8) : Option (List Token) := tokensWith bs.length bs

end DeskClock.Json
