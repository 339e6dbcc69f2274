import DeskClock.Calendar.Instant
import DeskClock.Text.Blank

/-!
# instants as text

* `Timestamp.write`   year, month, day, `T`, time and `Z`, with as many groups of three digits of the
                      second's fraction as are needed;
* `Timestamp.read?`   the instant of such a text and of its freer spellings: single digits, blanks
                      between the parts, a letter `t` or a space before the time, any offset.
-/

namespace DeskClock.Timestamp

/-- no fraction, or a point and three, six or nine digits -/
def fraction (nanosecond : Nat) : List Char :=
  if nanosecond = 0 then []
  else if nanosecond % 1000000 = 0 then '.' :: Digits.padded 3 (nanosecond / 1000000)
  else if nanosecond % 1000 = 0 then '.' :: Digits.padded 6 (nanosecond / 1000)
  else '.' :: Digits.padded 9 nanosecond

def writeDateTime (t : DateTime) : List Char :=
  Date.yearText t.date.year ++ '-' :: Digits.padded 2 t.date.month
    ++ '-' :: Digits.padded 2 t.date.day
    ++ 'T' :: Digits.padded 2 t.time.hour
    ++ ':' :: Digits.padded 2 t.time.minute
    ++ ':' :: Digits.padded 2 t.time.shownSecond
    ++ fraction t.time.shownNanosecond

def write (t : Instant) : List Char :=
  ((t.atOffset? 0).map writeDateTime).getD [] ++ ['Z']

/-! ## reading -/

/-- a run of one to `most` digits; a longer run is cut -/
def digits? (most : Nat) (cs : List Char) : Option (Nat × List Char) :=
  let run := (cs.take most).takeWhile Char.isDigit
  if run.isEmpty then none else some (Digits.value run, cs.drop run.length)

/-- a number of at most two digits, after blanks -/
def field? (cs : List Char) : Option (Nat × List Char) := digits? 2 (trimStart cs)

/-- a year, after blanks: four digits at most, or a sign and any count of digits -/
def year? (cs : List Char) : Option (Int × List Char) :=
  match trimStart cs with
  | '-' :: rest => (digits? rest.length rest).map fun (n, rest) => (-(n : Int), rest)
  | '+' :: rest => (digits? rest.length rest).map fun (n, rest) => ((n : Int), rest)
  | rest => (digits? 4 rest).map fun (n, rest) => ((n : Int), rest)

/-- a mark, after blanks -/
def mark? (mark : Char) (cs : List Char) : Option (List Char) :=
  match trimStart cs with
  | c :: rest => if c = mark then some rest else none
  | [] => none

/-- the fraction of a second in nanoseconds; digits after the ninth are dropped -/
def fraction? (cs : List Char) : Option (Nat × List Char) :=
  match cs with
  | '.' :: rest =>
    let run := rest.takeWhile Char.isDigit
    if run.isEmpty then none
    else
      let first := run.take 9
      some (Digits.value first * Nat.pow 10 (9 - first.length), rest.drop run.length)
  | _ => some (0, cs)

def twoDigits? : List Char → Option (Nat × List Char)
  | a :: b :: rest =>
    if a.isDigit && b.isDigit then some (10 * Digits.digitValue a + Digits.digitValue b, rest) else none
  | _ => none

/-- hours, any colons and blanks, and minutes of an offset, in seconds -/
def offsetDigits? (cs : List Char) : Option (Nat × List Char) := do
  let (hours, rest) ← twoDigits? cs
  let (minutes, rest) ← twoDigits? (rest.dropWhile fun c => c = ':' || isBlank c)
  if minutes < 60 ∧ hours < 24 then some (hours * 3600 + minutes * 60, rest) else none

/-- an offset in seconds: `Z`, a sign with hours and minutes, or the letters `UTC` -/
def offset? (cs : List Char) : Option (Int × List Char) :=
  if (cs.take 3).map Char.toLower = ['u', 't', 'c'] then some (0, cs.drop 3)
  else match cs with
    | 'Z' :: rest => some (0, rest)
    | 'z' :: rest => some (0, rest)
    | '+' :: rest => (offsetDigits? rest).map fun (n, rest) => ((n : Int), rest)
    | '-' :: rest => (offsetDigits? rest).map fun (n, rest) => (-(n : Int), rest)
    | '\u2212' :: rest => (offsetDigits? rest).map fun (n, rest) => (-(n : Int), rest)
    | _ => none

/-- the mark between the date and the time -/
def separator? : List Char → Option (List Char)
  | 'T' :: rest => some rest
  | 't' :: rest => some rest
  | ' ' :: rest => some rest
  | _ => none

/-- the time of the day from its numbers, 60 being the leap second after 59 -/
def clockTime? (hour minute second nanosecond : Nat) : Option ClockTime :=
  if second = 60 then ClockTime.of? hour minute 59 (1000000000 + nanosecond)
  else ClockTime.of? hour minute second nanosecond

def read? (cs : List Char) : Option Instant := do
  let (year, cs) ← year? cs
  let cs ← mark? '-' cs
  let (month, cs) ← field? cs
  let cs ← mark? '-' cs
  let (day, cs) ← field? cs
  let cs ← separator? cs
  let (hour, cs) ← field? cs
  let cs ← mark? ':' cs
  let (minute, cs) ← field? cs
  let cs ← mark? ':' cs
  let (second, cs) ← field? cs
  let (nanosecond, cs) ← fraction? cs
  let (offset, cs) ← offset? (trimStart cs)
  let date ← Date.of? year month day
  let time ← clockTime? hour minute second nanosecond
  if allBlank cs then Instant.of? (DateTime.seconds ⟨date, time⟩ - offset) time.nanosecond else none

end DeskClock.Timestamp
