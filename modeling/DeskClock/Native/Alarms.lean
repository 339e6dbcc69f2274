import DeskClock.Alarm
import DeskClock.Native.Library

/-!
# the alarm scheduler

* `AlarmScheduler`    a scheduler in use;
* `AlarmScheduler.create`, `add`, `remove`, `next`, `close`   what can be done with one;
* `AlarmScheduler.load`   adds configured alarms and counts those that are accepted.
-/

namespace DeskClock

open Native

/-- the alarm of a record, unless its time is out of range -/
def Native.AlarmRecord.alarm? (r : AlarmRecord) : Option Alarm :=
  (TimeOfDay.of? r.hour.toNat r.minute.toNat).map fun time =>
    { label := (r.text.map textAt).getD "", time, days := ⟨r.days⟩, sound := r.sound.map textAt }

structure AlarmScheduler where
  handle : Handle
deriving DecidableEq

namespace AlarmScheduler

def create (lib : Library σ) (s : Session σ) : Except Fault AlarmScheduler × Session σ :=
  let handle := s.nextHandle .alarms
  let (made, s) := s.ask lib (.alarms (.create handle))
  if (made : Bool) then (.ok ⟨handle⟩, s) else (.error (.nullHandle .alarmCreate), s)

/-- the sound as the library takes it: no address, or a text -/
def soundMemory? : Option String → Option (Option Memory)
  | none => some none
  | some sound => (terminated? sound).map some

def add (a : AlarmScheduler) (lib : Library σ) (label : String) (time : TimeOfDay) (days : Weekdays)
    (sound : Option String) (s : Session σ) : Except Fault Unit × Session σ :=
  match terminated? label, soundMemory? sound with
  | some text, some sound =>
    let (status, s) := s.ask lib (.alarms (.add a.handle text time days.bits sound))
    (checkStatus .alarmAdd status, s)
  | _, _ => (.error .interiorNul, s)

def remove (a : AlarmScheduler) (lib : Library σ) (label : String) (s : Session σ) :
    Except Fault Unit × Session σ :=
  match terminated? label with
  | none => (.error .interiorNul, s)
  | some text =>
    let (status, s) := s.ask lib (.alarms (.remove a.handle text))
    (checkStatus .alarmRemove status, s)

/-- the next alarm to go off, if any is scheduled -/
def next (a : AlarmScheduler) (lib : Library σ) (s : Session σ) :
    Except Fault (Option Alarm) × Session σ :=
  let (record, s) := s.ask lib (.alarms (.next a.handle))
  match (record : Option AlarmRecord) with
  | none => (.ok none, s)
  | some record =>
    match record.alarm? with
    | some alarm => (.ok (some alarm), s)
    | none => (.error (.malformedRecord .alarmNext), s)

/-- schedule configured alarms one after the other; those that are refused are passed over -/
def load (a : AlarmScheduler) (lib : Library σ) : List AlarmSettings → Session σ → Nat × Session σ
  | [], s => (0, s)
  | alarm :: alarms, s =>
    let (added, s) := a.add lib alarm.name alarm.time (.ofList alarm.days) alarm.sound s
    let (count, s) := a.load lib alarms s
    (match added with
      | .ok () => count + 1
      | .error _ => count, s)

def close (a : AlarmScheduler) (lib : Library σ) (s : Session σ) : Session σ :=
  (s.ask lib (.alarms (.destroy a.handle))).2

end AlarmScheduler

end DeskClock
