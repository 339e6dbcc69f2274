import DeskClock.Calendar.Instant
import DeskClock.Calendar.Date
import DeskClock.TimeOfDay
import DeskClock.Weather.Conditions

/-!
# configuration

* `Config`             all settings, each with its default;
* `AlarmSettings`      an alarm to schedule at the start;
* `GeoLocation`        the place of the weather;
* the lengths of time that follow from the settings: `NtpSettings.timeout`,
  `NtpSettings.checkInterval`, `WeatherSettings.timeout`, `WeatherSettings.refreshInterval`,
  `WeatherSettings.cacheTtl`, `DisplaySettings.tick`;
* `WindowSettings.columns`   the width of the window in characters.
-/

namespace DeskClock

structure LibrarySettings where
  path : String := "./libclock_util.so"
deriving DecidableEq

structure NtpSettings where
  server : String := "pool.ntp.org"
  timeoutSecs : UInt64 := 5
  checkIntervalSecs : UInt64 := 50
  maxDriftSecs : Int64 := 120
  applyCorrection : Bool := true
  syncOnStart : Bool := false
deriving DecidableEq

namespace NtpSettings

def timeout (s : NtpSettings) : Duration := .ofSeconds s.timeoutSecs.toNat
def checkInterval (s : NtpSettings) : Duration := .ofSeconds s.checkIntervalSecs.toNat

end NtpSettings

structure GeoLocation where
  latitude : Binary64
  longitude : Binary64
deriving DecidableEq

structure WeatherSettings where
  apiKey : String := ""
  units : TemperatureUnit := .fahrenheit
  latitude : Binary64 := Binary64.ofDecimal false 476062 (-4)
  longitude : Binary64 := Binary64.ofDecimal true 1223321 (-4)
  refreshMinutes : UInt64 := 360
  timeoutSecs : UInt64 := 30
  cachePath : String := "weather-cache.json"
  cacheTtlMinutes : UInt64 := 360
deriving DecidableEq

/-- minutes in seconds, at most the greatest number of 64 bits -/
def saturatingMinutes (minutes : UInt64) : Nat := min (minutes.toNat * 60) 18446744073709551615

namespace WeatherSettings

/-- the weather is asked for only with a key that is not blank -/
def isEnabled (s : WeatherSettings) : Bool := !allBlank s.apiKey.toList

def location (s : WeatherSettings) : GeoLocation := ⟨s.latitude, s.longitude⟩
def timeout (s : WeatherSettings) : Duration := .ofSeconds s.timeoutSecs.toNat
def refreshInterval (s : WeatherSettings) : Duration := .ofSeconds (saturatingMinutes s.refreshMinutes)
def cacheTtl (s : WeatherSettings) : Duration := .ofSeconds (saturatingMinutes s.cacheTtlMinutes)

end WeatherSettings

structure WindowSettings where
  title : String := "Smart Clock"
  width : UInt32 := 480
  height : UInt32 := 800
  x : Int32 := 0
  y : Int32 := 0
  resizable : Bool := false
  hideTitleBar : Bool := true
deriving DecidableEq

/-- the width of the window in characters of ten pixels, at least one -/
def WindowSettings.columns (s : WindowSettings) : Nat := max 1 (s.width.toNat / 10)

structure DisplaySettings where
  use24Hour : Bool := false
  showSeconds : Bool := true
  tickMillis : UInt64 := 1000
deriving DecidableEq

/-- the time between two frames, at least 50 milliseconds -/
def DisplaySettings.tick (s : DisplaySettings) : Duration := .ofMillis (max 50 s.tickMillis.toNat)

structure AlarmSettings where
  name : String
  time : TimeOfDay
  days : List Weekday := []
  sound : Option String := none
deriving DecidableEq

structure Config where
  library : LibrarySettings := {}
  ntp : NtpSettings := {}
  weather : WeatherSettings := {}
  window : WindowSettings := {}
  display : DisplaySettings := {}
  alarms : List AlarmSettings := []
deriving DecidableEq

end DeskClock
