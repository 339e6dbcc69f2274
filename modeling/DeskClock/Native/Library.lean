import DeskClock.Config
import DeskClock.Native.Text

/-!
# the native library

* `Native.EntryPoint`   the functions of the library, in the order in which they are looked up;
* `Native.Request`      a call of one of them, with what it is given;
* `Request.Answer`      what a call of each kind returns; the replies that arrive during `process` are
                        part of its answer;
* `Native.Library`      any behaviour: an answer and a new inner state for every request;
* `Native.Session`      the library in use: its state and the calls made so far with their answers.

A handle is a number. The session numbers the handles of each service from one on, in the order in
which they are made.
-/

namespace DeskClock.Native

inductive EntryPoint where
  | ntpCreate | ntpDestroy | ntpGetTime | ntpProcess | ntpSetTime
  | weatherCreate | weatherDestroy | weatherGetByCity | weatherProcess
  | alarmCreate | alarmDestroy | alarmAdd | alarmRemove | alarmNext
deriving DecidableEq

namespace EntryPoint

def all : List EntryPoint :=
  [ntpCreate, ntpDestroy, ntpGetTime, ntpProcess, ntpSetTime,
   weatherCreate, weatherDestroy, weatherGetByCity, weatherProcess,
   alarmCreate, alarmDestroy, alarmAdd, alarmRemove, alarmNext]

def name : EntryPoint → String
  | ntpCreate => "ntp_client_create"
  | ntpDestroy => "ntp_client_destroy"
  | ntpGetTime => "ntp_client_get_time"
  | ntpProcess => "ntp_client_process"
  | ntpSetTime => "ntp_client_set_time"
  | weatherCreate => "weather_client_create"
  | weatherDestroy => "weather_client_destroy"
  | weatherGetByCity => "weather_client_get_by_city"
  | weatherProcess => "weather_client_process"
  | alarmCreate => "alarm_scheduler_create"
  | alarmDestroy => "alarm_scheduler_destroy"
  | alarmAdd => "alarm_scheduler_add_alarm"
  | alarmRemove => "alarm_scheduler_remove_alarm"
  | alarmNext => "alarm_scheduler_get_next_alarm"

end EntryPoint

/-- what can go wrong between the clock and the library -/
inductive Fault where
  /-- no handle was made -/
  | nullHandle (entry : EntryPoint)
  /-- a status other than zero -/
  | status (entry : EntryPoint) (code : Int)
  /-- a record with values outside their range -/
  | malformedRecord (entry : EntryPoint)
  /-- a text with a zero byte in it -/
  | interiorNul
  /-- the library cannot be opened -/
  | libraryLoad
  /-- the library lacks an entry point -/
  | missingSymbol (entry : EntryPoint)
deriving DecidableEq

/-- the message of a fault; opening a library is reported by the system -/
def Fault.message? : Fault → Option String
  | .nullHandle entry => some (entry.name ++ " returned a null handle")
  | .status entry code =>
    some (entry.name ++ " failed with status " ++ String.ofList (Digits.ofInt code))
  | .malformedRecord entry => some (entry.name ++ " returned a malformed record")
  | .interiorNul => some "string argument contains an interior NUL byte"
  | .libraryLoad => none
  | .missingSymbol _ => none

/-- the fault of a status, if it is one -/
def checkStatus (entry : EntryPoint) (code : Int) : Except Fault Unit :=
  if code = 0 then .ok () else .error (.status entry code)

abbrev Handle := Nat

/-! ## records -/

/-- a call back with the result of a time request; without a context it reaches nobody -/
structure NtpReply where
  hasContext : Bool := true
  code : Int
  time : Int
deriving DecidableEq

structure WeatherRecord where
  temperature : Binary64
  high : Binary64
  low : Binary64
  description : Option Memory
deriving DecidableEq

/-- a call back with the result of a weather request; without a context it reaches nobody -/
structure WeatherReply where
  hasContext : Bool := true
  code : Int
  record : Option WeatherRecord
deriving DecidableEq

structure AlarmRecord where
  hour : UInt8
  minute : UInt8
  days : UInt32
  text : Option Memory
  sound : Option Memory
deriving DecidableEq

/-! ## requests -/

/-- A timeout is in whole seconds. A request to create something carries the handle that the new object
is to have. -/
inductive NtpRequest where
  | create (handle : Handle)
  | destroy (handle : Handle)
  | getTime (handle : Handle) (server : Memory) (timeout : Nat)
  | process (handle : Handle)
  | setTime (server : Memory) (timeout : Nat)
deriving DecidableEq

inductive WeatherRequest where
  | create (handle : Handle) (key : Memory) (unit : Int)
  | destroy (handle : Handle)
  | getByCity (handle : Handle) (location : GeoLocation) (timeout : Nat)
  | process (handle : Handle)
deriving DecidableEq

inductive AlarmRequest where
  | create (handle : Handle)
  | destroy (handle : Handle)
  | add (handle : Handle) (text : Memory) (time : TimeOfDay) (days : UInt32) (sound : Option Memory)
  | remove (handle : Handle) (text : Memory)
  | next (handle : Handle)
deriving DecidableEq

/-- whether the object was made, a status, or the replies that came in -/
abbrev NtpRequest.Answer : NtpRequest → Type
  | .create _ => Bool
  | .destroy _ => Unit
  | .getTime _ _ _ => Int
  | .process _ => List NtpReply
  | .setTime _ _ => Int

abbrev WeatherRequest.Answer : WeatherRequest → Type
  | .create _ _ _ => Bool
  | .destroy _ => Unit
  | .getByCity _ _ _ => Int
  | .process _ => List WeatherReply

abbrev AlarmRequest.Answer : AlarmRequest → Type
  | .create _ => Bool
  | .destroy _ => Unit
  | .add _ _ _ _ _ => Int
  | .remove _ _ => Int
  | .next _ => Option AlarmRecord

inductive Service where
  | ntp | weather | alarms
deriving DecidableEq

inductive Request where
  | ntp (r : NtpRequest)
  | weather (r : WeatherRequest)
  | alarms (r : AlarmRequest)
deriving DecidableEq

namespace Request

abbrev Answer : Request → Type
  | .ntp r => r.Answer
  | .weather r => r.Answer
  | .alarms r => r.Answer

def service : Request → Service
  | .ntp _ => .ntp
  | .weather _ => .weather
  | .alarms _ => .alarms

end Request

/-- any behaviour of the library, with an inner state -/
structure Library (σ : Type) where
  answer : (r : Request) → σ → r.Answer × σ

/-- a call and its answer -/
abbrev Exchange := (r : Request) × r.Answer

/-- the handle that an exchange made -/
def Exchange.made? : Exchange → Option (Service × Handle)
  | ⟨.ntp (.create h), made⟩ => if (made : Bool) then some (.ntp, h) else none
  | ⟨.weather (.create h _ _), made⟩ => if (made : Bool) then some (.weather, h) else none
  | ⟨.alarms (.create h), made⟩ => if (made : Bool) then some (.alarms, h) else none
  | _ => none

structure Session (σ : Type) where
  state : σ
  log : List Exchange

namespace Session

def new (state : σ) : Session σ := ⟨state, []⟩

/-- call the library -/
def ask (lib : Library σ) (r : Request) (s : Session σ) : r.Answer × Session σ :=
  let (answer, state) := lib.answer r s.state
  (answer, ⟨state, s.log ++ [⟨r, answer⟩]⟩)

/-- the handle of the next object of a service -/
def nextHandle (s : Session σ) (service : Service) : Handle :=
  (s.log.filter fun e => e.made?.any (·.1 == service)).length + 1

end Session

end DeskClock.Native
