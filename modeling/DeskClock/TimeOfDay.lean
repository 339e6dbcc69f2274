import DeskClock.Text.Blank
import DeskClock.Text.Digits

/-!
# the time of an alarm

* `TimeOfDay`          an hour and a minute;
* `TimeOfDay.text`     `HH:MM`;
* `TimeOfDay.parse`    the time of a text `HH:MM` or `HH:MM:SS`; the seconds are checked and dropped;
* `TimeOfDay.Fault`    why a text is no time, with the text.
-/

namespace DeskClock

structure TimeOfDay where
  hour : Fin 24
  minute : Fin 60
deriving DecidableEq

namespace TimeOfDay

def of? (hour minute : Nat) : Option TimeOfDay :=
  if h : hour < 24 ∧ minute < 60 then some ⟨⟨hour, h.1⟩, ⟨minute, h.2⟩⟩ else none

/-- the minutes since midnight -/
def sinceMidnight (t : TimeOfDay) : Nat := t.hour * 60 + t.minute

/-- the text `HH:MM` -/
def chars (t : TimeOfDay) : List Char := Digits.padded 2 t.hour ++ ':' :: Digits.padded 2 t.minute

def text (t : TimeOfDay) : String := String.ofList t.chars

inductive Fault where
  | invalidCharacter (text : String)
  | malformed (text : String)
  | outOfBounds (text : String)
deriving DecidableEq

def Fault.message : Fault → String
  | .invalidCharacter text => "invalid character in time value \x60" ++ text ++ "\x60"
  | .malformed text => "time value \x60" ++ text ++ "\x60 must look like HH:MM or HH:MM:SS"
  | .outOfBounds text => "time value \x60" ++ text ++ "\x60 is out of bounds"

/-- the parts of a text between its colons -/
def fields : List Char → List (List Char)
  | [] => [[]]
  | c :: cs =>
    if c = ':' then [] :: fields cs
    else match fields cs with
      | field :: rest => (c :: field) :: rest
      | [] => [[c]]

/-- the value of a run of digits as a byte -/
def byte? (field : List Char) : Option Nat :=
  if !field.isEmpty && field.all Char.isDigit && Digits.value field < 256 then some (Digits.value field)
  else none

/-- the values of the fields: two or three fields of one or two characters each -/
def numbers? (fields : List (List Char)) : Option (Nat × Nat × Nat) :=
  if fields.all fun field => 1 ≤ field.length && field.length ≤ 2 then
    match fields.mapM byte? with
    | some [h, m] => some (h, m, 0)
    | some [h, m, s] => some (h, m, s)
    | _ => none
  else none

def parse (text : String) : Except Fault TimeOfDay :=
  let cs := trim text.toList
  let trimmed := String.ofList cs
  if cs.any fun c => !c.isDigit && c != ':' then .error (.invalidCharacter trimmed)
  else match numbers? (fields cs) with
    | none => .error (.malformed trimmed)
    | some (hour, minute, second) =>
      if second < 60 then
        match of? hour minute with
        | some time => .ok time
        | none => .error (.outOfBounds trimmed)
      else .error (.outOfBounds trimmed)

end TimeOfDay

end DeskClock
