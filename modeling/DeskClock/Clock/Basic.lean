import DeskClock.Frame
import DeskClock.Native.Alarms
import DeskClock.Native.Ntp
import DeskClock.Native.Weather
import DeskClock.Weather.Cache
import DeskClock.Window

/-!
# the running clock

* `OperationState`    how far the latest request of a client is;
* `NtpService`, `WeatherService`, `AlarmService`   what the clock knows of each service;
* `Clock`             the services, the window, the files and the library in use;
* `Clock.new`         a clock without services, which shows cached weather;
* `Clock.frame`       the lines that the clock shows at a moment;
* `Clock.attach`      makes the clients of the library, in place of those there are;
* `Clock.release`     gives them up, in the reverse order.
-/

namespace DeskClock

open Native

inductive OperationState where
  | idle
  | inProcess
  | error
  | success
deriving DecidableEq

structure NtpService where
  client : Option NtpClient := none
  state : OperationState := .idle
  lastAttempt : Option Instant := none
deriving DecidableEq

structure WeatherService where
  client : Option WeatherClient := none
  state : OperationState := .idle
  lastAttempt : Option Instant := none
  conditions : Option Conditions := none
deriving DecidableEq

structure AlarmService where
  scheduler : Option AlarmScheduler := none
  /-- the minute at which the scheduler was asked last -/
  lastMinute : Option Int := none
  next : Option Alarm := none
deriving DecidableEq

structure Clock (σ τ : Type) where
  config : Config
  host : WindowHost τ
  native : Session σ
  disk : Disk
  /-- whether the library is there -/
  attached : Bool := false
  ntp : NtpService := {}
  weather : WeatherService := {}
  alarms : AlarmService := {}
  status : Option String

namespace Clock

/-- the conditions of the cache file, if it is fresh and can be read -/
def cached? (config : Config) (disk : Disk) : Option Conditions :=
  match CachedWeather.load disk config.weather.cachePath config.weather.cacheTtl with
  | .ok cached => some cached.conditions
  | .error _ => none

def new (config : Config) (disk : Disk) (native : Session σ) (surface : τ) : Clock σ τ where
  config
  host := .new config.window surface
  native
  disk
  weather := { conditions := cached? config disk }
  status := some "Clock service unavailable"

def frame (c : Clock σ τ) (now : DateTime) : List String :=
  DeskClock.frame (ClockFace.at now c.config.display) c.weather.conditions c.alarms.next c.status

/-! ## the clients -/

/-- set the clock of the machine, and show how it went; a server name with a zero byte shows nothing -/
def setMachineTime (lib : Library σ) (c : Clock σ τ) : Clock σ τ :=
  match setTime lib c.config.ntp.server c.config.ntp.timeout c.native with
  | (.ok outcome, native) => { c with native, status := some outcome.message }
  | (.error _, native) => { c with native }

/-- another time client, or none, in place of the one there is -/
def replaceNtp (lib : Library σ) (client : Option NtpClient) (c : Clock σ τ) : Clock σ τ :=
  { c with
    native := match c.ntp.client with
      | some old => old.close lib c.native
      | none => c.native
    ntp := { c.ntp with client } }

def replaceWeather (lib : Library σ) (client : Option WeatherClient) (c : Clock σ τ) : Clock σ τ :=
  { c with
    native := match c.weather.client with
      | some old => old.close lib c.native
      | none => c.native
    weather := { c.weather with client } }

def replaceAlarms (lib : Library σ) (scheduler : Option AlarmScheduler) (c : Clock σ τ) :
    Clock σ τ :=
  { c with
    native := match c.alarms.scheduler with
      | some old => old.close lib c.native
      | none => c.native
    alarms := { c.alarms with scheduler } }

/-- a new time client; if it cannot be made there is none -/
def attachNtp (lib : Library σ) (c : Clock σ τ) : Clock σ τ :=
  let (created, native) := NtpClient.create lib c.native
  { c with native }.replaceNtp lib created.toOption

/-- a new weather client, if the weather is enabled; if it cannot be made there is none -/
def attachWeather (lib : Library σ) (c : Clock σ τ) : Clock σ τ :=
  if c.config.weather.isEnabled then
    let (created, native) :=
      WeatherClient.create lib c.config.weather.apiKey c.config.weather.units c.native
    { c with native }.replaceWeather lib created.toOption
  else c

/-- a new scheduler with the configured alarms; if it cannot be made the old one stays -/
def attachAlarms (lib : Library σ) (c : Clock σ τ) : Clock σ τ :=
  match AlarmScheduler.create lib c.native with
  | (.ok scheduler, native) =>
    let (_, native) := scheduler.load lib c.config.alarms native
    { c with native }.replaceAlarms lib (some scheduler)
  | (.error _, native) => { c with native }

/-- set the time if that is to be done at the start -/
def syncOnStart (lib : Library σ) (c : Clock σ τ) : Clock σ τ :=
  if c.config.ntp.syncOnStart then c.setMachineTime lib else c

def attach (lib : Library σ) (c : Clock σ τ) : Clock σ τ :=
  let c := { c with status := none }
  let c := c.syncOnStart lib
  let c := c.attachNtp lib
  let c := c.attachWeather lib
  let c := c.attachAlarms lib
  { c with attached := true }

/-- give up the scheduler, the weather client and the time client -/
def release (lib : Library σ) (c : Clock σ τ) : Clock σ τ :=
  let c := c.replaceAlarms lib none
  let c := c.replaceWeather lib none
  c.replaceNtp lib none

end Clock

end DeskClock
