import DeskClock.Text.Digits

/-!
# the calendar

* `Date`              a day of the proleptic Gregorian calendar, from year -262143 to 262142;
* `Date.dayNumber`    the days since 1970-01-01;
* `Date.ofDayNumber?` the day with a number, if its year is in the range;
* `Weekday`           the days of the week, Monday first;
* `ClockTime`         a time of the day to the nanosecond; a leap second is a second of up to two
                      thousand million nanoseconds;
* `DateTime`          a day and a time of that day.
-/

namespace DeskClock

inductive Weekday where
  | monday | tuesday | wednesday | thursday | friday | saturday | sunday
deriving DecidableEq, Inhabited

namespace Weekday

/-- Monday first -/
def all : List Weekday := [monday, tuesday, wednesday, thursday, friday, saturday, sunday]

/-- the place in the week, Monday being 0 -/
def index : Weekday → Nat
  | monday => 0 | tuesday => 1 | wednesday => 2 | thursday => 3 | friday => 4 | saturday => 5
  | sunday => 6

def name : Weekday → String
  | monday => "Monday" | tuesday => "Tuesday" | wednesday => "Wednesday" | thursday => "Thursday"
  | friday => "Friday" | saturday => "Saturday" | sunday => "Sunday"

def shortName : Weekday → String
  | monday => "Mon" | tuesday => "Tue" | wednesday => "Wed" | thursday => "Thu" | friday => "Fri"
  | saturday => "Sat" | sunday => "Sun"

/-- the day after `n` days from a Monday -/
def ofIndex (n : Nat) : Weekday :=
  match n % 7 with
  | 0 => monday | 1 => tuesday | 2 => wednesday | 3 => thursday | 4 => friday | 5 => saturday
  | _ => sunday

/-- the next day of the week, cyclically -/
def next : Weekday → Weekday
  | monday => tuesday | tuesday => wednesday | wednesday => thursday | thursday => friday
  | friday => saturday | saturday => sunday | sunday => monday

/-- a day from its full or short name, letters of either case -/
def ofName? (text : String) : Option Weekday :=
  let lower := text.toList.map Char.toLower
  all.find? fun day =>
    lower == day.name.toList.map Char.toLower || lower == day.shortName.toList.map Char.toLower

end Weekday

namespace Date

def minYear : Int := -262143
def maxYear : Int := 262142

def isLeapYear (year : Int) : Bool :=
  year % 4 == 0 && (year % 100 != 0 || year % 400 == 0)

def daysInMonth (year : Int) (month : Nat) : Nat :=
  match month with
  | 2 => if isLeapYear year then 29 else 28
  | 4 | 6 | 9 | 11 => 30
  | _ => 31

end Date

structure Date where
  year : Int
  month : Nat
  day : Nat
  year_mem : Date.minYear ≤ year ∧ year ≤ Date.maxYear
  month_mem : 1 ≤ month ∧ month ≤ 12
  day_mem : 1 ≤ day ∧ day ≤ Date.daysInMonth year month
deriving DecidableEq

namespace Date

/-- the day of a year, month and day of the month, if there is one in the range -/
def of? (year : Int) (month day : Nat) : Option Date :=
  if hy : minYear ≤ year ∧ year ≤ maxYear then
    if hm : 1 ≤ month ∧ month ≤ 12 then
      if hd : 1 ≤ day ∧ day ≤ daysInMonth year month then some ⟨year, month, day, hy, hm, hd⟩
      else none
    else none
  else none

/-- the days of the months before a month of a year -/
def daysBeforeMonth (year : Int) : Nat → Nat
  | 0 => 0
  | month + 1 => if month = 0 then 0 else daysBeforeMonth year month + daysInMonth year month

/-- the days from 0001-01-01 to the start of a year, negative before year 1 -/
def daysBeforeYear (year : Int) : Int :=
  let y := year - 1
  365 * y + y / 4 - y / 100 + y / 400

/-- the days from 0001-01-01 to 1970-01-01 -/
def epochDays : Int := 719162

/-- the days since 1970-01-01 -/
def dayNumber (d : Date) : Int :=
  daysBeforeYear d.year + daysBeforeMonth d.year d.month + (d.day - 1) - epochDays

/-- the month and the day of the month, from the days that have passed since the start of `month` -/
def splitMonths (year : Int) (rest : Nat) : (month count : Nat) → Nat × Nat
  | month, 0 => (month, rest + 1)
  | month, count + 1 =>
    if rest < daysInMonth year month then (month, rest + 1)
    else splitMonths year (rest - daysInMonth year month) (month + 1) count

/-- the year that holds a day, and the days since its start; the day is counted from 0001-01-01.
Every 400 years have as many days. Among those the last year of every four has a day more, of every
hundred not, of all four hundred again, so that dropping the extra days leaves years of 365. -/
def splitYears (days : Int) : Int × Nat :=
  let era := days / 146097
  let dayOfEra := (days % 146097).toNat
  let yearOfEra := (dayOfEra - dayOfEra / 1460 + dayOfEra / 36524 - dayOfEra / 146096) / 365
  (era * 400 + yearOfEra + 1, dayOfEra - (365 * yearOfEra + yearOfEra / 4 - yearOfEra / 100))

/-- the day with a number, if its year is in the range -/
def ofDayNumber? (n : Int) : Option Date :=
  let (year, dayOfYear) := splitYears (n + epochDays)
  let (month, day) := splitMonths year dayOfYear 1 11
  of? year month day

/-- the day of the week; 1970-01-01 was a Thursday -/
def weekday (d : Date) : Weekday := Weekday.ofIndex ((d.dayNumber + 3) % 7).toNat

def monthName (month : Nat) : String :=
  match month with
  | 1 => "January" | 2 => "February" | 3 => "March" | 4 => "April" | 5 => "May" | 6 => "June"
  | 7 => "July" | 8 => "August" | 9 => "September" | 10 => "October" | 11 => "November"
  | _ => "December"

/-- a year with at least four digits, signed outside 0 to 9999 -/
def yearText (year : Int) : List Char :=
  if year < 0 then '-' :: Digits.padded 4 year.natAbs
  else if year ≤ 9999 then Digits.padded 4 year.natAbs
  else '+' :: Digits.padded 4 year.natAbs

end Date

structure ClockTime where
  hour : Nat
  minute : Nat
  second : Nat
  nanosecond : Nat
  hour_lt : hour < 24
  minute_lt : minute < 60
  second_lt : second < 60
  nanosecond_lt : nanosecond < 2000000000
deriving DecidableEq

namespace ClockTime

/-- a time of the day; only the last second of a minute can be a leap second -/
def of? (hour minute second nanosecond : Nat) : Option ClockTime :=
  if h : hour < 24 ∧ minute < 60 ∧ second < 60 ∧ nanosecond < 2000000000 then
    if nanosecond < 1000000000 ∨ second = 59 then
      some ⟨hour, minute, second, nanosecond, h.1, h.2.1, h.2.2.1, h.2.2.2⟩
    else none
  else none

/-- the seconds since midnight, a leap second counting as the one before it -/
def secondOfDay (t : ClockTime) : Nat := t.hour * 3600 + t.minute * 60 + t.second

/-- the time at a second of the day -/
def atSecond (second nanosecond : Nat) (h : nanosecond < 2000000000) : ClockTime where
  hour := second / 3600 % 24
  minute := second / 60 % 60
  second := second % 60
  nanosecond
  hour_lt := Nat.mod_lt _ (by decide)
  minute_lt := Nat.mod_lt _ (by decide)
  second_lt := Nat.mod_lt _ (by decide)
  nanosecond_lt := h

/-- the second as it is shown, 60 during a leap second -/
def shownSecond (t : ClockTime) : Nat := t.second + t.nanosecond / 1000000000

/-- the nanoseconds of the second as it is shown -/
def shownNanosecond (t : ClockTime) : Nat := t.nanosecond % 1000000000

end ClockTime

structure DateTime where
  date : Date
  time : ClockTime
deriving DecidableEq

namespace DateTime

/-- the seconds since 1970-01-01 00:00 on the same clock -/
def seconds (t : DateTime) : Int := t.date.dayNumber * 86400 + t.time.secondOfDay

/-- the moment at a count of seconds since 1970-01-01 00:00, if its year is in the range -/
def ofSeconds? (seconds : Int) (nanosecond : Nat) : Option DateTime :=
  if h : nanosecond < 2000000000 then
    (Date.ofDayNumber? (seconds / 86400)).map fun date =>
      ⟨date, ClockTime.atSecond (seconds % 86400).toNat nanosecond h⟩
  else none

end DateTime

end DeskClock
