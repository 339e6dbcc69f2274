import DeskClock.Calendar.Timestamp
import DeskClock.Disk
import DeskClock.Json.Number
import DeskClock.Json.Value
import DeskClock.Json.Writer
import DeskClock.Weather.Conditions

/-!
# the weather cache

* `CachedWeather`          conditions and the instant at which they came in;
* `CachedWeather.write`    their text, a JSON object with the members in a fixed order;
* `CachedWeather.ofJson?`  reads them from a JSON value;
* `CachedWeather.load`     reads a file that is not older than a given time;
* `CachedWeather.save`     writes a file, unless a temperature is not finite.
-/

namespace DeskClock

structure CachedWeather where
  fetchedAt : Instant
  conditions : Conditions
deriving DecidableEq

/-- why the cache is not read or written -/
inductive CacheFault where
  | io
  | json
  | nonFinite
  /-- the file is older than allowed -/
  | stale (age : Duration)
deriving DecidableEq

/-- the message of a fault that the clock finds by itself -/
def CacheFault.message? : CacheFault → Option String
  | .io | .json => none
  | .nonFinite => some "conditions hold a non-finite temperature"
  | .stale age => some ("cache is " ++ String.ofList (Digits.ofNat age.wholeSeconds) ++ "s old")

/-! ## writing -/

/-- `"name":text` -/
def jsonMember (name : String) (text : List Char) : List Char :=
  Json.writeText name.toList ++ ':' :: text

/-- members with commas between them, in braces -/
def jsonObject (members : List (List Char)) : List Char :=
  '{' :: [','].intercalate members ++ ['}']

namespace Conditions

def temperatures (c : Conditions) : List Binary64 := [c.temperature, c.high, c.low]

def isFinite (c : Conditions) : Bool := c.temperatures.all Binary64.isFinite

def json (c : Conditions) : List Char :=
  jsonObject
    [jsonMember "temperature" (Json.writeNumber c.temperature),
     jsonMember "high" (Json.writeNumber c.high),
     jsonMember "low" (Json.writeNumber c.low),
     jsonMember "description" (Json.writeText c.description.toList),
     jsonMember "unit" (Json.writeText c.unit.name.toList)]

end Conditions

/-! ## reading -/

namespace Json.Value

def string? : Value → Option String
  | .text raw => Json.string? raw
  | _ => none

def number? : Value → Option Binary64
  | .number n => n.value?
  | _ => none

/-- a unit: its name, or an object with its name as the only member and null under it -/
def unit? : Value → Option TemperatureUnit
  | .text raw => (Json.string? raw).bind TemperatureUnit.ofName?
  | .object [(raw, .null)] => (Json.string? raw).bind TemperatureUnit.ofName?
  | _ => none

def instant? (v : Value) : Option Instant := v.string?.bind fun text => Timestamp.read? text.toList

end Json.Value

def Conditions.ofJson? (v : Json.Value) : Option Conditions := do
  match ← v.fields? ["temperature", "high", "low", "description", "unit"] with
  | [temperature, high, low, description, unit] =>
    return {
      temperature := ← temperature.number?
      high := ← high.number?
      low := ← low.number?
      description := ← description.string?
      unit := ← unit.unit? }
  | _ => none

namespace CachedWeather

def write (c : CachedWeather) : List Char :=
  jsonObject
    [jsonMember "fetched_at" (Json.writeText (Timestamp.write c.fetchedAt)),
     jsonMember "conditions" c.conditions.json]

def ofJson? (v : Json.Value) : Option CachedWeather := do
  match ← v.fields? ["fetched_at", "conditions"] with
  | [fetchedAt, conditions] => return ⟨← fetchedAt.instant?, ← Conditions.ofJson? conditions⟩
  | _ => none

/-- the cached weather in the bytes of a file -/
def read? (bytes : List UInt8) : Option CachedWeather := (Json.read? bytes).bind ofJson?

/-- the age of the file is checked before its contents -/
def load (disk : Disk) (path : String) (ttl : Duration) : Except CacheFault CachedWeather :=
  match disk.file? path with
  | none => .error .io
  | some file =>
    if ttl.nanoseconds < file.age.nanoseconds then .error (.stale file.age)
    else
      match read? file.contents with
      | some cached => .ok cached
      | none => .error .json

def save (c : CachedWeather) (disk : Disk) (path : String) : Except CacheFault Unit × Disk :=
  if c.conditions.isFinite then
    match disk.write? path (Utf8.encode c.write) with
    | some disk => (.ok (), disk)
    | none => (.error .io, disk)
  else (.error .nonFinite, disk)

end CachedWeather

end DeskClock
