import DeskClock.Alarm
import DeskClock.Config

/-!
# the frame of the clock

* `ClockFace`      the time and the date as they are shown;
* `ClockFace.at`   the face at a moment;
* `frame`          the lines of the clock: time, date, a blank line, weather, alarm and, unless it is
                   empty, the status.
-/

namespace DeskClock

structure ClockFace where
  time : String
  period : String
  date : String
deriving DecidableEq

namespace ClockFace

/-- the hour of a twelve-hour clock, midnight and noon being twelve -/
def hour12 (hour : Nat) : Nat := if hour % 12 = 0 then 12 else hour % 12

/-- `:05` -/
def twoPlaces (n : Nat) : List Char := ':' :: Digits.padded 2 n

/-- the time without its period; a leap second is second 60 of the 24-hour form only -/
def timeChars (time : ClockTime) (display : DisplaySettings) : List Char :=
  if display.use24Hour then
    Digits.padded 2 time.hour ++ twoPlaces time.minute
      ++ (if display.showSeconds then twoPlaces time.shownSecond else [])
  else
    Digits.ofNat (hour12 time.hour) ++ twoPlaces time.minute
      ++ (if display.showSeconds then twoPlaces time.second else [])

def periodText (time : ClockTime) (display : DisplaySettings) : String :=
  if display.use24Hour then "" else if time.hour < 12 then " AM" else " PM"

/-- `Friday, October 16 2026` -/
def dateChars (date : Date) : List Char :=
  date.weekday.name.toList ++ ',' :: ' ' :: (Date.monthName date.month).toList
    ++ ' ' :: Digits.ofNat date.day ++ ' ' :: Date.yearText date.year

/-- the face at a moment -/
def «at» (now : DateTime) (display : DisplaySettings) : ClockFace where
  time := String.ofList (timeChars now.time display)
  period := periodText now.time display
  date := String.ofList (dateChars now.date)

/-- the time with its period -/
def timeLine (face : ClockFace) : String := face.time ++ face.period

end ClockFace

def weatherRow : Option Conditions → String
  | some conditions => conditions.line
  | none => "Weather unavailable"

def alarmRow : Option Alarm → String
  | some alarm => alarm.line
  | none => "No alarms scheduled"

/-- the status, if there is one to show -/
def statusRows : Option String → List String
  | some status => if status.isEmpty then [] else [status]
  | none => []

def frame (face : ClockFace) (weather : Option Conditions) (alarm : Option Alarm)
    (status : Option String) : List String :=
  [face.timeLine, face.date, "", weatherRow weather, alarmRow alarm] ++ statusRows status

end DeskClock
