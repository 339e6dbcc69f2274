import DeskClock.Config
import DeskClock.Toml.Table

/-!
# the configuration as a TOML document

* `Config.document`   the document of a configuration;
* `Config.ofTable?`   the configuration of a table: an unknown key is passed over, a missing one has its
                      default, and a value of the wrong kind or out of range is refused.

A section may be a table or an array of its values in order. A date stands for a section without
known keys.
-/

namespace DeskClock

/-! ## reading values -/

namespace Toml

def text? : Toml → Option String
  | .string text => some text
  | _ => none

def boolean? : Toml → Option Bool
  | .boolean b => some b
  | _ => none

/-- a number; an integer is taken for the nearest float -/
def number? : Toml → Option Binary64
  | .float x => some x
  | .integer n => some (Binary64.ofInt n)
  | _ => none

def integerIn? (low high : Int) : Toml → Option Int
  | .integer n => if low ≤ n ∧ n ≤ high then some n else none
  | _ => none

def uint64? (v : Toml) : Option UInt64 := (v.integerIn? 0 18446744073709551615).map fun n => .ofNat n.toNat
def uint32? (v : Toml) : Option UInt32 := (v.integerIn? 0 4294967295).map fun n => .ofNat n.toNat
def int64? (v : Toml) : Option Int64 :=
  (v.integerIn? (-9223372036854775808) 9223372036854775807).map Int64.ofInt
def int32? (v : Toml) : Option Int32 := (v.integerIn? (-2147483648) 2147483647).map Int32.ofInt

/-- the items of an array, each read alike -/
def list? (read : Toml → Option α) : Toml → Option (List α)
  | .array items => items.mapM read
  | _ => none

/-- an empty table or array -/
def isVoid : Toml → Bool
  | .table [] => true
  | .array [] => true
  | _ => false

/-- a unit: its name, or a table with its name as the only key and nothing under it -/
def unit? : Toml → Option TemperatureUnit
  | .string name => TemperatureUnit.ofName? name
  | .table [(name, v)] => if v.isVoid then TemperatureUnit.ofName? name else none
  | _ => none

def weekday? (v : Toml) : Option Weekday := v.text?.bind Weekday.ofName?

def time? (v : Toml) : Option TimeOfDay := v.text?.bind fun text => (TimeOfDay.parse text).toOption

/-- the values of a section, by name or in order -/
inductive Fields where
  | named (entries : List (String × Toml))
  | ordered (items : List Toml)

def fields? : Toml → Option Fields
  | .table entries => some (.named entries)
  | .array items => some (.ordered items)
  | .moment _ => some (.named [])
  | _ => none

namespace Fields

/-- the value of the field with a place and a name -/
def get? (fields : Fields) (place : Nat) (name : String) : Option Toml :=
  match fields with
  | named entries => entries.lookup name
  | ordered items => items[place]?

/-- a field that must be there -/
def required (fields : Fields) (place : Nat) (name : String) (read : Toml → Option α) : Option α :=
  (fields.get? place name).bind read

/-- a field with a default -/
def optional (fields : Fields) (place : Nat) (name : String) (read : Toml → Option α) (default : α) :
    Option α :=
  match fields.get? place name with
  | none => some default
  | some v => read v

end Fields

end Toml

open Toml (Fields)

def LibrarySettings.ofToml? (v : Toml) : Option LibrarySettings := do
  let fields ← v.fields?
  let base : LibrarySettings := {}
  return { path := ← fields.optional 0 "path" Toml.text? base.path }

def NtpSettings.ofToml? (v : Toml) : Option NtpSettings := do
  let fields ← v.fields?
  let base : NtpSettings := {}
  return {
    server := ← fields.optional 0 "server" Toml.text? base.server
    timeoutSecs := ← fields.optional 1 "timeout_secs" Toml.uint64? base.timeoutSecs
    checkIntervalSecs := ← fields.optional 2 "check_interval_secs" Toml.uint64? base.checkIntervalSecs
    maxDriftSecs := ← fields.optional 3 "max_drift_secs" Toml.int64? base.maxDriftSecs
    applyCorrection := ← fields.optional 4 "apply_correction" Toml.boolean? base.applyCorrection
    syncOnStart := ← fields.optional 5 "sync_on_start" Toml.boolean? base.syncOnStart }

def WeatherSettings.ofToml? (v : Toml) : Option WeatherSettings := do
  let fields ← v.fields?
  let base : WeatherSettings := {}
  return {
    apiKey := ← fields.optional 0 "api_key" Toml.text? base.apiKey
    units := ← fields.optional 1 "units" Toml.unit? base.units
    latitude := ← fields.optional 2 "latitude" Toml.number? base.latitude
    longitude := ← fields.optional 3 "longitude" Toml.number? base.longitude
    refreshMinutes := ← fields.optional 4 "refresh_minutes" Toml.uint64? base.refreshMinutes
    timeoutSecs := ← fields.optional 5 "timeout_secs" Toml.uint64? base.timeoutSecs
    cachePath := ← fields.optional 6 "cache_path" Toml.text? base.cachePath
    cacheTtlMinutes := ← fields.optional 7 "cache_ttl_minutes" Toml.uint64? base.cacheTtlMinutes }

def WindowSettings.ofToml? (v : Toml) : Option WindowSettings := do
  let fields ← v.fields?
  let base : WindowSettings := {}
  return {
    title := ← fields.optional 0 "title" Toml.text? base.title
    width := ← fields.optional 1 "width" Toml.uint32? base.width
    height := ← fields.optional 2 "height" Toml.uint32? base.height
    x := ← fields.optional 3 "x" Toml.int32? base.x
    y := ← fields.optional 4 "y" Toml.int32? base.y
    resizable := ← fields.optional 5 "resizable" Toml.boolean? base.resizable
    hideTitleBar := ← fields.optional 6 "hide_title_bar" Toml.boolean? base.hideTitleBar }

def DisplaySettings.ofToml? (v : Toml) : Option DisplaySettings := do
  let fields ← v.fields?
  let base : DisplaySettings := {}
  return {
    use24Hour := ← fields.optional 0 "use_24_hour" Toml.boolean? base.use24Hour
    showSeconds := ← fields.optional 1 "show_seconds" Toml.boolean? base.showSeconds
    tickMillis := ← fields.optional 2 "tick_millis" Toml.uint64? base.tickMillis }

def AlarmSettings.ofToml? (v : Toml) : Option AlarmSettings := do
  let fields ← v.fields?
  return {
    name := ← fields.required 0 "name" Toml.text?
    time := ← fields.required 1 "time" Toml.time?
    days := ← fields.optional 2 "days" (Toml.list? Toml.weekday?) []
    sound := ← fields.optional 3 "sound" (fun v => v.text?.map some) none }

def Config.ofTable? (entries : List (String × Toml)) : Option Config := do
  let fields := Fields.named entries
  return {
    library := ← fields.optional 0 "library" LibrarySettings.ofToml? {}
    ntp := ← fields.optional 1 "ntp" NtpSettings.ofToml? {}
    weather := ← fields.optional 2 "weather" WeatherSettings.ofToml? {}
    window := ← fields.optional 3 "window" WindowSettings.ofToml? {}
    display := ← fields.optional 4 "display" DisplaySettings.ofToml? {}
    alarms := ← fields.optional 5 "alarms" (Toml.list? AlarmSettings.ofToml?) [] }

/-! ## the document -/

namespace Toml

/-- an assignment to a bare name -/
def field (name : String) (v : Toml) : Assignment := ⟨⟨[], name⟩, v⟩

/-- a block under a header of one name -/
def Block.simple (name : String) (assignments : List Assignment) : Block :=
  ⟨false, ⟨[], name⟩, assignments⟩

def ofUInt64 (n : UInt64) : Toml := .integer n.toNat
def ofUInt32 (n : UInt32) : Toml := .integer n.toNat

end Toml

open Toml (field)

def LibrarySettings.assignments (s : LibrarySettings) : List Toml.Assignment :=
  [field "path" (.string s.path)]

def NtpSettings.assignments (s : NtpSettings) : List Toml.Assignment :=
  [field "server" (.string s.server),
   field "timeout_secs" (.ofUInt64 s.timeoutSecs),
   field "check_interval_secs" (.ofUInt64 s.checkIntervalSecs),
   field "max_drift_secs" (.integer s.maxDriftSecs.toInt),
   field "apply_correction" (.boolean s.applyCorrection),
   field "sync_on_start" (.boolean s.syncOnStart)]

def WeatherSettings.assignments (s : WeatherSettings) : List Toml.Assignment :=
  [field "api_key" (.string s.apiKey),
   field "units" (.string s.units.name),
   field "latitude" (.float s.latitude),
   field "longitude" (.float s.longitude),
   field "refresh_minutes" (.ofUInt64 s.refreshMinutes),
   field "timeout_secs" (.ofUInt64 s.timeoutSecs),
   field "cache_path" (.string s.cachePath),
   field "cache_ttl_minutes" (.ofUInt64 s.cacheTtlMinutes)]

def WindowSettings.assignments (s : WindowSettings) : List Toml.Assignment :=
  [field "title" (.string s.title),
   field "width" (.ofUInt32 s.width),
   field "height" (.ofUInt32 s.height),
   field "x" (.integer s.x.toInt),
   field "y" (.integer s.y.toInt),
   field "resizable" (.boolean s.resizable),
   field "hide_title_bar" (.boolean s.hideTitleBar)]

def DisplaySettings.assignments (s : DisplaySettings) : List Toml.Assignment :=
  [field "use_24_hour" (.boolean s.use24Hour),
   field "show_seconds" (.boolean s.showSeconds),
   field "tick_millis" (.ofUInt64 s.tickMillis)]

def AlarmSettings.assignments (s : AlarmSettings) : List Toml.Assignment :=
  [field "name" (.string s.name),
   field "time" (.string s.time.text),
   field "days" (.array (s.days.map fun day => .string day.shortName))]
    ++ s.sound.toList.map fun sound => field "sound" (.string sound)

/-- the document of a configuration: an empty list of alarms in front, the sections, and a block for
each alarm -/
def Config.document (c : Config) : Toml.Document where
  preamble := if c.alarms.isEmpty then [field "alarms" (.array [])] else []
  blocks :=
    [.simple "library" c.library.assignments,
     .simple "ntp" c.ntp.assignments,
     .simple "weather" c.weather.assignments,
     .simple "window" c.window.assignments,
     .simple "display" c.display.assignments]
      ++ c.alarms.map fun alarm => ⟨true, ⟨[], "alarms"⟩, alarm.assignments⟩

end DeskClock
