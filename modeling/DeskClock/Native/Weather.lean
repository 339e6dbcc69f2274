import DeskClock.Native.Library

/-!
# the weather client

* `WeatherUpdate`    a weather request that has ended, translated from a reply of the library;
* `WeatherClient`    a client in use: its handle, its unit and the updates not yet collected;
* `WeatherClient.create`, `getByCity`, `process`, `poll`, `close`   what can be done with one.
-/

namespace DeskClock

open Native

inductive WeatherUpdate where
  | conditions (c : Conditions)
  | failed (outcome : WeatherOutcome)
  /-- a code that is not documented -/
  | unrecognized (code : Int)
deriving DecidableEq

/-- the conditions of a record, with the unit they were asked for in -/
def Native.WeatherRecord.conditions (r : WeatherRecord) (unit : TemperatureUnit) : Conditions where
  temperature := r.temperature
  high := r.high
  low := r.low
  description := (r.description.map textAt).getD ""
  unit

def WeatherUpdate.ofReply (unit : TemperatureUnit) (reply : WeatherReply) : WeatherUpdate :=
  match WeatherOutcome.ofCode reply.code with
  | .ok .success =>
    match reply.record with
    | some record => .conditions (record.conditions unit)
    | none => .failed .invalidData
  | .ok failure => .failed failure
  | .error _ => .unrecognized reply.code

structure WeatherClient where
  handle : Handle
  unit : TemperatureUnit
  /-- the updates not yet collected, the earliest first -/
  queue : List WeatherUpdate
deriving DecidableEq

namespace WeatherClient

def create (lib : Library σ) (apiKey : String) (unit : TemperatureUnit) (s : Session σ) :
    Except Fault WeatherClient × Session σ :=
  match terminated? apiKey with
  | none => (.error .interiorNul, s)
  | some key =>
    let handle := s.nextHandle .weather
    let (made, s) := s.ask lib (.weather (.create handle key unit.code))
    if (made : Bool) then (.ok ⟨handle, unit, []⟩, s) else (.error (.nullHandle .weatherCreate), s)

/-- start a weather request -/
def getByCity (c : WeatherClient) (lib : Library σ) (location : GeoLocation) (timeout : Duration)
    (s : Session σ) : Except Fault Unit × Session σ :=
  let (status, s) := s.ask lib (.weather (.getByCity c.handle location timeout.wholeSeconds))
  (checkStatus .weatherGetByCity status, s)

/-- a reply of the library arrives -/
def receive (c : WeatherClient) (reply : WeatherReply) : WeatherClient :=
  if reply.hasContext then { c with queue := c.queue ++ [.ofReply c.unit reply] } else c

def receiveAll (c : WeatherClient) (replies : List WeatherReply) : WeatherClient :=
  replies.foldl receive c

/-- let the library go on with a request; replies may arrive meanwhile -/
def process (c : WeatherClient) (lib : Library σ) (s : Session σ) : WeatherClient × Session σ :=
  let (replies, s) := s.ask lib (.weather (.process c.handle))
  (c.receiveAll replies, s)

/-- collect the updates -/
def poll (c : WeatherClient) : List WeatherUpdate × WeatherClient := (c.queue, { c with queue := [] })

def close (c : WeatherClient) (lib : Library σ) (s : Session σ) : Session σ :=
  (s.ask lib (.weather (.destroy c.handle))).2

end WeatherClient

end DeskClock
