import DeskClock.Native.Library

/-!
# calls as rows

* `Native.Cell`       a value in a row;
* `Exchange.entry`    the entry point that was called;
* `Exchange.cells`    what it was given and, unless that is plain, what it answered: first the handle,
                       which is absent if none was made, then the arguments, and the status last.
-/

namespace DeskClock.Native

inductive Cell where
  | absent
  | number (n : Int)
  | float (x : Binary64)
  | text (label : String)
deriving DecidableEq

namespace Cell

def ofNat (n : Nat) : Cell := .number n

def ofMemory (memory : Memory) : Cell := .text (textAt memory)

def ofMemory? : Option Memory → Cell
  | some memory => ofMemory memory
  | none => .absent

/-- a handle, if it was made -/
def ofMade (handle : Handle) (made : Bool) : Cell := if made then ofNat handle else .absent

end Cell

namespace Exchange

open Cell

def entry : Exchange → EntryPoint
  | ⟨.ntp (.create _), _⟩ => .ntpCreate
  | ⟨.ntp (.destroy _), _⟩ => .ntpDestroy
  | ⟨.ntp (.getTime _ _ _), _⟩ => .ntpGetTime
  | ⟨.ntp (.process _), _⟩ => .ntpProcess
  | ⟨.ntp (.setTime _ _), _⟩ => .ntpSetTime
  | ⟨.weather (.create _ _ _), _⟩ => .weatherCreate
  | ⟨.weather (.destroy _), _⟩ => .weatherDestroy
  | ⟨.weather (.getByCity _ _ _), _⟩ => .weatherGetByCity
  | ⟨.weather (.process _), _⟩ => .weatherProcess
  | ⟨.alarms (.create _), _⟩ => .alarmCreate
  | ⟨.alarms (.destroy _), _⟩ => .alarmDestroy
  | ⟨.alarms (.add _ _ _ _ _), _⟩ => .alarmAdd
  | ⟨.alarms (.remove _ _), _⟩ => .alarmRemove
  | ⟨.alarms (.next _), _⟩ => .alarmNext

def cells : Exchange → List Cell
  | ⟨.ntp (.create h), made⟩ => [ofMade h made]
  | ⟨.ntp (.destroy h), _⟩ => [ofNat h]
  | ⟨.ntp (.getTime h server timeout), status⟩ =>
    [ofNat h, ofMemory server, ofNat timeout, number status]
  | ⟨.ntp (.process h), _⟩ => [ofNat h]
  | ⟨.ntp (.setTime server timeout), status⟩ => [ofMemory server, ofNat timeout, number status]
  | ⟨.weather (.create h key unit), made⟩ => [ofMade h made, ofMemory key, number unit]
  | ⟨.weather (.destroy h), _⟩ => [ofNat h]
  | ⟨.weather (.getByCity h location timeout), status⟩ =>
    [ofNat h, float location.latitude, float location.longitude, ofNat timeout, number status]
  | ⟨.weather (.process h), _⟩ => [ofNat h]
  | ⟨.alarms (.create h), made⟩ => [ofMade h made]
  | ⟨.alarms (.destroy h), _⟩ => [ofNat h]
  | ⟨.alarms (.add h label time days sound), status⟩ =>
    [ofNat h, ofMemory label, ofNat time.hour, ofNat time.minute, ofNat days.toNat, ofMemory? sound,
     number status]
  | ⟨.alarms (.remove h label), status⟩ => [ofNat h, ofMemory label, number status]
  | ⟨.alarms (.next h), _⟩ => [ofNat h]

end Exchange

end DeskClock.Native
