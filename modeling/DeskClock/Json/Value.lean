import DeskClock.Json.Token
import DeskClock.Text.Utf8

/-!
# JSON values

* `Json.Value`      a value; the texts in it keep their escapes;
* `Json.step?`      one token read, with the open arrays and objects held in a list, so that values may
                    lie in each other to any depth;
* `Json.ofTokens?`  the value of a list of tokens;
* `Json.read?`      the value of a text;
* `Json.text?`      the characters of a quoted text, if its escapes and bytes are valid.
-/

namespace DeskClock.Json

inductive Value where
  | null
  | boolean (b : Bool)
  | number (n : Numeral)
  | text (raw : List UInt8)
  | array (items : List Value)
  | object (members : List (List UInt8 × Value))

/-- an array or an object that is not complete, the latest item first -/
inductive Open where
  | array (items : List Value)
  | object (members : List (List UInt8 × Value)) (name : List UInt8)

/-- what may come next, inside the open arrays and objects -/
inductive State where
  | value (outer : List Open)
  | firstItem (outer : List Open)
  | firstName (outer : List Open)
  | name (members : List (List UInt8 × Value)) (outer : List Open)
  | colon (members : List (List UInt8 × Value)) (name : List UInt8) (outer : List Open)
  | afterItem (items : List Value) (outer : List Open)
  | afterMember (members : List (List UInt8 × Value)) (outer : List Open)
  | done (v : Value)

/-- the state behind a complete value -/
def complete (v : Value) : List Open → State
  | [] => .done v
  | .array items :: outer => .afterItem (v :: items) outer
  | .object members name :: outer => .afterMember ((name, v) :: members) outer

/-- the state behind the first token of a value -/
def start? (outer : List Open) : Token → Option State
  | .null => some (complete .null outer)
  | .boolean b => some (complete (.boolean b) outer)
  | .number n => some (complete (.number n) outer)
  | .text raw => some (complete (.text raw) outer)
  | .openBracket => some (.firstItem outer)
  | .openBrace => some (.firstName outer)
  | _ => none

def step? : State → Token → Option State
  | .value outer, token => start? outer token
  | .firstItem outer, .closeBracket => some (complete (.array []) outer)
  | .firstItem outer, token => start? (.array [] :: outer) token
  | .firstName outer, .closeBrace => some (complete (.object []) outer)
  | .firstName outer, .text raw => some (.colon [] raw outer)
  | .name members outer, .text raw => some (.colon members raw outer)
  | .colon members name outer, .colon => some (.value (.object members name :: outer))
  | .afterItem items outer, .comma => some (.value (.array items :: outer))
  | .afterItem items outer, .closeBracket => some (complete (.array items.reverse) outer)
  | .afterMember members outer, .comma => some (.name members outer)
  | .afterMember members outer, .closeBrace => some (complete (.object members.reverse) outer)
  | _, _ => none

def ofTokens? (tokens : List Token) : Option Value :=
  match tokens.foldlM step? (.value []) with
  | some (.done v) => some v
  | _ => none

def read? (bs : List UInt8) : Option Value := (tokens? bs).bind ofTokens?

/-! ## quoted texts -/

/-- the number of four digits of base sixteen -/
def unitValue (h₁ h₂ h₃ h₄ : UInt8) : Nat :=
  [h₁, h₂, h₃, h₄].foldl (fun n b => 16 * n + (Digits.hexValue? (Char.ofNat b.toNat)).getD 0) 0

/-- the bytes of the character with a number -/
def encodeScalar (n : Nat) : List UInt8 := Utf8.encode [Char.ofNat n]

/-- the byte of a one-letter escape -/
def escapeValue (b : UInt8) : UInt8 :=
  if b = byte 'b' then 0x08
  else if b = byte 'f' then 0x0C
  else if b = byte 'n' then 0x0A
  else if b = byte 'r' then 0x0D
  else if b = byte 't' then 0x09
  else b

/-- the bytes that a quoted text stands for; an escaped surrogate must be one of a pair -/
def unescape? : List UInt8 → Option (List UInt8)
  | [] => some []
  | b :: bs =>
    if b = 0x5C then
      match bs with
      | [] => none
      | e :: rest =>
        if e = byte 'u' then
          match rest with
          | h₁ :: h₂ :: h₃ :: h₄ :: rest =>
            let n := unitValue h₁ h₂ h₃ h₄
            if 0xD800 ≤ n ∧ n < 0xDC00 then
              match rest with
              | s :: u :: l₁ :: l₂ :: l₃ :: l₄ :: rest =>
                let m := unitValue l₁ l₂ l₃ l₄
                if s = 0x5C ∧ u = byte 'u' ∧ 0xDC00 ≤ m ∧ m < 0xE000 then
                  (unescape? rest).map
                    (encodeScalar (0x10000 + (n - 0xD800) * 0x400 + (m - 0xDC00)) ++ ·)
                else none
              | _ => none
            else if 0xDC00 ≤ n ∧ n < 0xE000 then none
            else (unescape? rest).map (encodeScalar n ++ ·)
          | _ => none
        else (unescape? rest).map (escapeValue e :: ·)
    else (unescape? bs).map (b :: ·)

/-- the characters of a quoted text -/
def text? (raw : List UInt8) : Option (List Char) := (unescape? raw).bind Utf8.decode?

def string? (raw : List UInt8) : Option String := (text? raw).map String.ofList

/-! ## members -/

namespace Value

/-- the value of the only member with a name -/
def only? (name : String) (members : List (String × Value)) : Option Value :=
  match members.filter (·.1 == name) with
  | [(_, v)] => some v
  | _ => none

/-- the values of the named fields, each of which is there once: of an object, whose other members are
passed over, or of an array with as many items -/
def fields? (names : List String) : Value → Option (List Value)
  | .object members => do
    let members ← members.mapM fun (raw, v) => (string? raw).map (·, v)
    names.mapM fun name => only? name members
  | .array items => if items.length = names.length then some items else none
  | _ => none

end Value

end DeskClock.Json
