import DeskClock.Calendar.Date

/-!
# instants

* `Duration`           a length of time, in nanoseconds;
* `Instant`            a point of universal time, to the nanosecond;
* `Instant.since`      the signed time between two instants, in nanoseconds;
* `Instant.atOffset?`  what a clock shows that is a number of seconds ahead of universal time.
-/

namespace DeskClock

structure Duration where
  nanoseconds : Nat
deriving DecidableEq

namespace Duration

def ofSeconds (n : Nat) : Duration := ⟨n * 1000000000⟩
def ofMillis (n : Nat) : Duration := ⟨n * 1000000⟩

def wholeSeconds (d : Duration) : Nat := d.nanoseconds / 1000000000
def wholeMillis (d : Duration) : Nat := d.nanoseconds / 1000000

end Duration

namespace Instant

/-- the first second of year -262143 -/
def minSeconds : Int := -8334601228800

/-- the last second of year 262142 -/
def maxSeconds : Int := 8210266876799

end Instant

/-- A point of universal time: the seconds since 1970-01-01 00:00 without leap seconds, and the
nanoseconds since then, which go on to two thousand million in a leap second. -/
structure Instant where
  seconds : Int
  nanosecond : Nat
  seconds_mem : Instant.minSeconds ≤ seconds ∧ seconds ≤ Instant.maxSeconds
  nanosecond_mem : nanosecond < 1000000000 ∨ (nanosecond < 2000000000 ∧ seconds % 60 = 59)
deriving DecidableEq

namespace Instant

def of? (seconds : Int) (nanosecond : Nat) : Option Instant :=
  if hs : minSeconds ≤ seconds ∧ seconds ≤ maxSeconds then
    if hn : nanosecond < 1000000000 ∨ (nanosecond < 2000000000 ∧ seconds % 60 = 59) then
      some ⟨seconds, nanosecond, hs, hn⟩
    else none
  else none

/-- an instant at a whole second -/
def ofSeconds? (seconds : Int) : Option Instant := of? seconds 0

/-- 1970-01-01 00:00 -/
def epoch : Instant := ⟨0, 0, by decide, by decide⟩

def isLeapSecond (t : Instant) : Bool := 1000000000 ≤ t.nanosecond

/-- what a clock shows that is `offset` seconds ahead of universal time -/
def atOffset? (t : Instant) (offset : Int) : Option DateTime :=
  DateTime.ofSeconds? (t.seconds + offset) t.nanosecond

def secondOfDay (t : Instant) : Int := t.seconds % 86400

/-- the second that a leap second adds to the time up to a later time of the day -/
def leapPassed (leap other : Instant) : Int :=
  if leap.isLeapSecond ∧ leap.secondOfDay < other.secondOfDay then 1 else 0

/-- The signed time from `u` to `t` in nanoseconds. The leap second of one of them counts if the time
of the day of the other is later, whatever their days are. -/
def since (t u : Instant) : Int :=
  (t.seconds - u.seconds + leapPassed u t - leapPassed t u) * 1000000000
    + ((t.nanosecond : Int) - u.nanosecond)

/-- the minute of universal time that holds an instant -/
def minute (t : Instant) : Int := t.seconds / 60

end Instant

end DeskClock
