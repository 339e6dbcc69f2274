import DeskClock.Native.Library

/-!
# a library that answers as it is told

* `Scripted.Knobs`     the answers that are set beforehand;
* `Scripted.State`     the knobs, the requests that wait for replies, and the stored alarms;
* `Scripted.library`   the library: accepted requests are answered by the set replies during the next
                       `process`, and alarms are stored by their text.
-/

namespace DeskClock.Native.Scripted

structure Knobs where
  /-- the services whose objects are not made -/
  failCreate : List Service := []
  ntpStatus : Int := 0
  ntpReplies : List NtpReply := [{ code := 0, time := 1700000000 }]
  setTimeStatus : Int := 0
  weatherStatus : Int := 0
  weatherReplies : List WeatherReply :=
    [{ code := 0
       record := some ⟨.ofNat 43, .ofNat 50, .ofNat 38, terminated? "light rain"⟩ }]
  addStatus : Int := 0
  removeStatus : Int := 0
  /-- the record that is returned as the next alarm instead of a stored one -/
  nextRecord : Option AlarmRecord := none

/-- an alarm as it was added -/
structure StoredAlarm where
  text : Memory
  time : TimeOfDay
  days : UInt32
  sound : Option Memory

structure State where
  knobs : Knobs
  /-- the time clients with a pending request -/
  ntpPending : List Handle := []
  weatherPending : List Handle := []
  /-- the alarms of each scheduler, the earliest added first -/
  alarms : List (Handle × StoredAlarm) := []

def StoredAlarm.record (a : StoredAlarm) : AlarmRecord where
  hour := UInt8.ofNat a.time.hour
  minute := UInt8.ofNat a.time.minute
  days := a.days
  text := some a.text
  sound := a.sound

/-- the earliest of some alarms, and among equal times the first -/
def earliest? : List StoredAlarm → Option StoredAlarm
  | [] => none
  | a :: as =>
    match earliest? as with
    | some b => if b.time.sinceMidnight < a.time.sinceMidnight then some b else some a
    | none => some a

namespace State

/-- the alarms of a scheduler -/
def stored (s : State) (h : Handle) : List StoredAlarm :=
  (s.alarms.filter (·.1 == h)).map (·.2)

def hasAlarm (s : State) (h : Handle) (text : Memory) : Bool := (s.stored h).any (·.text == text)

end State

/-- a pending request of a client and the replies to it -/
def takePending (pending : List Handle) (h : Handle) (replies : List α) : List α × List Handle :=
  if pending.contains h && !replies.isEmpty then (replies, pending.erase h) else ([], pending)

def answerNtp : (r : NtpRequest) → State → r.Answer × State
  | .create _, s => (!s.knobs.failCreate.contains .ntp, s)
  | .destroy h, s => ((), { s with ntpPending := s.ntpPending.erase h })
  | .getTime h _ _, s =>
    if s.knobs.ntpStatus = 0 then (0, { s with ntpPending := h :: s.ntpPending.erase h })
    else (s.knobs.ntpStatus, s)
  | .process h, s =>
    let (replies, ntpPending) := takePending s.ntpPending h s.knobs.ntpReplies
    (replies, { s with ntpPending })
  | .setTime _ _, s => (s.knobs.setTimeStatus, s)

def answerWeather : (r : WeatherRequest) → State → r.Answer × State
  | .create _ _ _, s => (!s.knobs.failCreate.contains .weather, s)
  | .destroy h, s => ((), { s with weatherPending := s.weatherPending.erase h })
  | .getByCity h _ _, s =>
    if s.knobs.weatherStatus = 0 then (0, { s with weatherPending := h :: s.weatherPending.erase h })
    else (s.knobs.weatherStatus, s)
  | .process h, s =>
    let (replies, weatherPending) := takePending s.weatherPending h s.knobs.weatherReplies
    (replies, { s with weatherPending })

def answerAlarms : (r : AlarmRequest) → State → r.Answer × State
  | .create _, s => (!s.knobs.failCreate.contains .alarms, s)
  | .destroy h, s => ((), { s with alarms := s.alarms.filter (·.1 != h) })
  | .add h text time days sound, s =>
    if s.knobs.addStatus ≠ 0 then (s.knobs.addStatus, s)
    else if s.hasAlarm h text then (3, s)
    else (0, { s with alarms := s.alarms ++ [(h, ⟨text, time, days, sound⟩)] })
  | .remove h text, s =>
    if s.knobs.removeStatus ≠ 0 then (s.knobs.removeStatus, s)
    else if s.hasAlarm h text then
      (0, { s with alarms := s.alarms.filter fun (other, a) => other != h || a.text != text })
    else (1, s)
  | .next h, s =>
    match s.knobs.nextRecord with
    | some record => (some record, s)
    | none => ((earliest? (s.stored h)).map StoredAlarm.record, s)

def library : Library State where
  answer
    | .ntp r, s => answerNtp r s
    | .weather r, s => answerWeather r s
    | .alarms r, s => answerAlarms r s

end DeskClock.Native.Scripted
