import DeskClock.Calendar.Date
import DeskClock.TimeOfDay

/-!
# alarms

* `Weekdays`       a set of days as a mask of 32 bits, Monday being the lowest; other bits are kept;
* `Alarm`          a scheduled alarm;
* `Alarm.line`     how an alarm is shown.
-/

namespace DeskClock

structure Weekdays where
  bits : UInt32
deriving DecidableEq

namespace Weekdays

def none : Weekdays := ⟨0⟩

/-- the mask of a single day -/
def single (day : Weekday) : Weekdays := ⟨1 <<< UInt32.ofNat day.index⟩

def union (a b : Weekdays) : Weekdays := ⟨a.bits ||| b.bits⟩

def ofList (days : List Weekday) : Weekdays :=
  days.foldl (fun mask day => mask.union (single day)) none

def includes (mask : Weekdays) (day : Weekday) : Bool :=
  mask.bits &&& (single day).bits == (single day).bits

/-- the days of the mask, Monday first -/
def toList (mask : Weekdays) : List Weekday := Weekday.all.filter mask.includes

def shortNames (mask : Weekdays) : List String := mask.toList.map Weekday.shortName

end Weekdays

structure Alarm where
  label : String
  time : TimeOfDay
  days : Weekdays
  sound : Option String
deriving DecidableEq

/-- `Alarm 06:30 Mon Tue  Wake up` -/
def Alarm.line (alarm : Alarm) : String :=
  let days := alarm.days.shortNames
  "Alarm " ++ alarm.time.text
    ++ (if days.isEmpty then "" else " " ++ " ".intercalate days)
    ++ (if alarm.label.isEmpty then "" else "  " ++ alarm.label)

end DeskClock
