import DeskClock.Clock.Basic

/-!
# the clock from tick to tick

* `isDue`                 whether it is time for another request;
* `Clock.pumpNtp`         handles the ended time requests, then starts one if it is due;
* `Clock.pumpWeather`     the same for the weather;
* `Clock.refreshAlarm`    asks for the next alarm when the minute has changed;
* `Clock.tick`            all of these, then a frame;
* `Clock.start`, `handleEvent`, `shutdown`   the life of the window.
-/

namespace DeskClock

open Native

/-- another request is due if there was none, if the clock has gone back, or after an interval -/
def isDue (last : Option Instant) (now : Instant) (interval : Duration) : Bool :=
  match last with
  | none => true
  | some last => now.since last < 0 || (interval.nanoseconds : Int) ≤ now.since last

/-- why a tick fails -/
inductive TickFault (ε : Type) where
  /-- the frame was not drawn -/
  | surface (cause : ε)
  /-- the local time is out of range -/
  | localTime
deriving DecidableEq

namespace Clock

/-! ## time -/

/-- correct the clock of the machine, or show how far off it is -/
def onDrift (lib : Library σ) (seconds : Int) (c : Clock σ τ) : Clock σ τ :=
  if c.attached && c.config.ntp.applyCorrection then c.setMachineTime lib
  else
    let text := "Clock is off by " ++ String.ofList (Digits.ofInt seconds) ++ "s"
    { c with status := some text }

/-- a drift counts in whole seconds toward zero, and only above the allowed one -/
def onNtpUpdate (lib : Library σ) (now : Instant) (c : Clock σ τ) (update : NtpUpdate) :
    Clock σ τ :=
  let state := if update.result = .success then OperationState.success else .error
  let c := { c with ntp := { c.ntp with state } }
  match update.driftFrom now with
  | none => c
  | some drift =>
    let seconds := drift.tdiv 1000000000
    if (seconds.natAbs : Int) ≤ c.config.ntp.maxDriftSecs.toInt then c else c.onDrift lib seconds

/-- let the library go on, and handle the updates that came in -/
def collectNtp (lib : Library σ) (now : Instant) (client : NtpClient) (c : Clock σ τ) : Clock σ τ :=
  let (client, native) := client.process lib c.native
  let (updates, client) := client.poll
  updates.foldl (onNtpUpdate lib now) { c with native, ntp := { c.ntp with client := some client } }

/-- start a request; one that is refused counts as an attempt too -/
def requestTime (lib : Library σ) (now : Instant) (client : NtpClient) (c : Clock σ τ) : Clock σ τ :=
  let (started, native) := client.getTime lib c.config.ntp.server c.config.ntp.timeout c.native
  let state := match started with
    | .ok () => OperationState.inProcess
    | .error _ => .error
  { c with native, ntp := { c.ntp with state, lastAttempt := some now } }

def pumpNtp (lib : Library σ) (now : Instant) (c : Clock σ τ) : Clock σ τ :=
  match c.ntp.client with
  | none => c
  | some client =>
    let c := if c.ntp.state = .inProcess then c.collectNtp lib now client else c
    match c.ntp.client with
    | none => c
    | some client =>
      if c.ntp.state ≠ .inProcess ∧ isDue c.ntp.lastAttempt now c.config.ntp.checkInterval then
        c.requestTime lib now client
      else c

/-! ## weather -/

/-- new conditions are written to the cache and shown; a failed write is passed over -/
def onWeatherUpdate (now : Instant) (c : Clock σ τ) (update : WeatherUpdate) : Clock σ τ :=
  match update with
  | .conditions conditions =>
    let (_, disk) := CachedWeather.save ⟨now, conditions⟩ c.disk c.config.weather.cachePath
    { c with disk, weather := { c.weather with state := .success, conditions := some conditions } }
  | .failed _ | .unrecognized _ => { c with weather := { c.weather with state := .error } }

def collectWeather (lib : Library σ) (now : Instant) (client : WeatherClient) (c : Clock σ τ) :
    Clock σ τ :=
  let (client, native) := client.process lib c.native
  let (updates, client) := client.poll
  updates.foldl (onWeatherUpdate now)
    { c with native, weather := { c.weather with client := some client } }

def requestWeather (lib : Library σ) (now : Instant) (client : WeatherClient) (c : Clock σ τ) :
    Clock σ τ :=
  let (started, native) :=
    client.getByCity lib c.config.weather.location c.config.weather.timeout c.native
  let state := match started with
    | .ok () => OperationState.inProcess
    | .error _ => .error
  { c with native, weather := { c.weather with state, lastAttempt := some now } }

def pumpWeather (lib : Library σ) (now : Instant) (c : Clock σ τ) : Clock σ τ :=
  match c.weather.client with
  | none => c
  | some client =>
    let c := if c.weather.state = .inProcess then c.collectWeather lib now client else c
    match c.weather.client with
    | none => c
    | some client =>
      if c.weather.state ≠ .inProcess
          ∧ isDue c.weather.lastAttempt now c.config.weather.refreshInterval then
        c.requestWeather lib now client
      else c

/-! ## alarms -/

/-- a malformed record counts as no alarm -/
def refreshAlarm (lib : Library σ) (now : Instant) (c : Clock σ τ) : Clock σ τ :=
  match c.alarms.scheduler with
  | none => c
  | some scheduler =>
    if c.alarms.lastMinute = some now.minute then c
    else
      let (answer, native) := scheduler.next lib c.native
      let next := match answer with
        | .ok alarm => alarm
        | .error _ => none
      { c with native, alarms := { c.alarms with lastMinute := some now.minute, next } }

/-! ## the window -/

/-- the services before the frame of a tick is drawn -/
def pump (lib : Library σ) (now : Instant) (c : Clock σ τ) : Clock σ τ :=
  ((c.pumpNtp lib now).pumpWeather lib now).refreshAlarm lib now

/-- one tick at an instant, on a clock that is `offset` seconds ahead of universal time -/
def tick (lib : Library σ) (S : Surface τ ε) (now : Instant) (offset : Int) (c : Clock σ τ) :
    Except (TickFault ε) Unit × Clock σ τ :=
  let c := c.pump lib now
  match now.atOffset? offset with
  | none => (.error .localTime, c)
  | some moment =>
    match c.host.draw S (c.frame moment) with
    | (.ok _, host) => (.ok (), { c with host })
    | (.error e, host) => (.error (.surface e), { c with host })

/-- make the window and show it -/
def start (S : Surface τ ε) (c : Clock σ τ) : Except ε Unit × Clock σ τ :=
  match c.host.create S with
  | (.error e, host) => (.error e, { c with host })
  | (.ok _, host) =>
    let (result, host) := host.handle S .readyToShow
    (result, { c with host })

/-- a window that is made anew is shown at once -/
def handleEvent (S : Surface τ ε) (event : WindowEvent) (c : Clock σ τ) :
    Except ε Unit × Clock σ τ :=
  match c.host.handle S event with
  | (.error e, host) => (.error e, { c with host })
  | (.ok (), host) =>
    if event = .activate ∧ host.isOpen ∧ !host.isVisible then
      let (result, host) := host.handle S .readyToShow
      (result, { c with host })
    else (.ok (), { c with host })

/-- close the window and give up the clients, also if the window fails to close -/
def shutdown (lib : Library σ) (S : Surface τ ε) (c : Clock σ τ) : Except ε Unit × Clock σ τ :=
  let (result, host) := c.host.handle S .closed
  (result, { c with host }.release lib)

end Clock

end DeskClock
