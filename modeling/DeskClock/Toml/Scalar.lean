import DeskClock.Toml.Table
import DeskClock.Calendar.Date

/-!
# words of a TOML document

A value that starts without a quote or a bracket is a word: a run of letters, digits and the marks
`_ + - . :`. A word is read as a whole.

* `Toml.integer?`   a number in base ten with a sign, or in base 16, 8 or 2;
* `Toml.float?`     a number with a fraction or an exponent, an infinity or not a number;
* `Toml.isMoment`   a date, a time, or both with an offset;
* `Toml.scalar?`    the value of a word.
-/

namespace DeskClock.Toml

def isWordChar (c : Char) : Bool :=
  c.isAlphanum || c = '_' || c = '+' || c = '-' || c = '.' || c = ':'

/-- digits with single underscores between them, without the underscores -/
def ungroup (isDigit : Char → Bool) : List Char → Option (List Char)
  | [] => none
  | [c] => if isDigit c then some [c] else none
  | c :: '_' :: rest => if isDigit c then (ungroup isDigit rest).map (c :: ·) else none
  | c :: rest => if isDigit c then (ungroup isDigit rest).map (c :: ·) else none

/-- whether a sign is a minus, and the word behind the sign -/
def splitSign : List Char → Bool × List Char
  | '+' :: rest => (false, rest)
  | '-' :: rest => (true, rest)
  | rest => (false, rest)

/-- digits of base ten that do not start with a needless zero -/
def wholeDigits? (cs : List Char) : Option (List Char) :=
  match ungroup Char.isDigit cs with
  | some ['0'] => some ['0']
  | some ('0' :: _) => none
  | digits => digits

def radixValue? (isDigit : Char → Bool) (radix : Nat) (cs : List Char) : Option Nat :=
  (ungroup isDigit cs).map fun digits =>
    digits.foldl (fun n c => radix * n + (Digits.hexValue? c).getD 0) 0

def minInteger : Int := -9223372036854775808
def maxInteger : Int := 9223372036854775807

/-- an integer of 64 bits -/
def inRange? (n : Int) : Option Int := if minInteger ≤ n ∧ n ≤ maxInteger then some n else none

def isHexDigit (c : Char) : Bool := (Digits.hexValue? c).isSome
def isOctalDigit (c : Char) : Bool := '0' ≤ c && c ≤ '7'
def isBinaryDigit (c : Char) : Bool := c = '0' || c = '1'

def integer? (word : List Char) : Option Int :=
  match word with
  | '0' :: 'x' :: cs => (radixValue? isHexDigit 16 cs).bind fun n => inRange? n
  | '0' :: 'o' :: cs => (radixValue? isOctalDigit 8 cs).bind fun n => inRange? n
  | '0' :: 'b' :: cs => (radixValue? isBinaryDigit 2 cs).bind fun n => inRange? n
  | _ =>
    let (negative, cs) := splitSign word
    (wholeDigits? cs).bind fun digits =>
      inRange? (if negative then -(Digits.value digits : Int) else Digits.value digits)

/-- the digits of a fraction, after its point; the empty text is no fraction -/
def fractionDigits? : List Char → Option (List Char)
  | [] => some []
  | '.' :: cs => ungroup Char.isDigit cs
  | _ => none

/-- the exponent after its letter; the empty text is no exponent -/
def exponent? : List Char → Option Int
  | [] => some 0
  | c :: cs =>
    if c = 'e' ∨ c = 'E' then
      let (negative, cs) := splitSign cs
      (ungroup Char.isDigit cs).map fun digits =>
        if negative then -(Digits.value digits : Int) else Digits.value digits
    else none

/-- a float; one too large for a finite number is refused, but only if it is positive -/
def float? (word : List Char) : Option Binary64 :=
  let (negative, cs) := splitSign word
  if cs = ['i', 'n', 'f'] then some (.infinite negative)
  else if cs = ['n', 'a', 'n'] then some (.nan negative)
  else
    let whole := cs.takeWhile fun c => c != '.' && c != 'e' && c != 'E'
    let cs := cs.drop whole.length
    let fraction := cs.takeWhile fun c => c != 'e' && c != 'E'
    let power := cs.drop fraction.length
    if fraction.isEmpty && power.isEmpty then none
    else do
      let whole ← wholeDigits? whole
      let fraction ← fractionDigits? fraction
      let power ← exponent? power
      let x := Binary64.ofDecimal negative (Digits.value (whole ++ fraction)) (power - fraction.length)
      if x = .infinite false then none else some x

/-! ## dates and times -/

/-- a number of two digits -/
def pair? (a b : Char) : Option Nat :=
  if a.isDigit && b.isDigit then some (10 * Digits.digitValue a + Digits.digitValue b) else none

/-- what follows the date at the start of a text -/
def afterDate? : List Char → Option (List Char)
  | y₁ :: y₂ :: y₃ :: y₄ :: '-' :: m₁ :: m₂ :: '-' :: d₁ :: d₂ :: rest => do
    let century ← pair? y₁ y₂
    let year ← pair? y₃ y₄
    let month ← pair? m₁ m₂
    let day ← pair? d₁ d₂
    if 1 ≤ month ∧ month ≤ 12 ∧ 1 ≤ day ∧ day ≤ Date.daysInMonth (100 * century + year : Nat) month
    then some rest else none
  | _ => none

/-- what follows the time at the start of a text -/
def afterTime? : List Char → Option (List Char)
  | h₁ :: h₂ :: ':' :: m₁ :: m₂ :: ':' :: s₁ :: s₂ :: rest => do
    let hour ← pair? h₁ h₂
    let minute ← pair? m₁ m₂
    let second ← pair? s₁ s₂
    if hour < 24 ∧ minute < 60 ∧ second ≤ 60 then
      match rest with
      | '.' :: cs => if (cs.takeWhile Char.isDigit).isEmpty then none else some (cs.dropWhile Char.isDigit)
      | rest => some rest
    else none
  | _ => none

def isOffset : List Char → Bool
  | ['Z'] => true
  | ['z'] => true
  | [sign, h₁, h₂, ':', m₁, m₂] =>
    (sign = '+' || sign = '-') && (pair? h₁ h₂).any (· < 24) && (pair? m₁ m₂).any (· < 60)
  | _ => false

/-- a time of the day -/
def isTime (word : List Char) : Bool := afterTime? word == some []

/-- a time with an offset or without -/
def isOffsetTime (word : List Char) : Bool :=
  (afterTime? word).any fun rest => rest.isEmpty || isOffset rest

/-- a date alone -/
def isDate (word : List Char) : Bool := afterDate? word == some []

def isMoment (word : List Char) : Bool :=
  isTime word ||
  match afterDate? word with
  | some [] => true
  | some (c :: time) => (c = 'T' || c = 't') && isOffsetTime time
  | none => false

def scalar? (word : List Char) : Option Toml :=
  if word = ['t', 'r', 'u', 'e'] then some (.boolean true)
  else if word = ['f', 'a', 'l', 's', 'e'] then some (.boolean false)
  else if isMoment word then some (.moment (String.ofList word))
  else match integer? word with
    | some n => some (.integer n)
    | none => (float? word).map .float

end DeskClock.Toml
